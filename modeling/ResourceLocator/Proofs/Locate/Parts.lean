import ResourceLocator.Proofs.Locate.Startup
import ResourceLocator.Proofs.Session.MadeOf

/-!
# What locating resources is made of

To locate resources is to ask a few questions, which do not depend on each other's answers, and to
make entries in the debug log between them (`Program.Context.madeOf_locate`). Of these questions
(`Program.Context.Part`) it is enough to know that they leave the world as it is and are answered by
the disk (`Session.Inquiry`).
-/

namespace ResourceLocator

/-- A session asks its surroundings, or makes an entry in the debug log. -/
inductive Session.Inquiry : ∀ ⦃α : Type⦄, Session α → Prop where
  /-- It asks, and the world stays as it is. -/
  | ask {α : Type} {session : Session α} (answer : FileSystem → String → String → Except Failure α)
      (h : ∀ w, session.runIn w = (answer w.disk w.cwd w.home, w)) : Inquiry session
  /-- It makes an entry. -/
  | note (note : Note) : Inquiry (Journal.write note)

namespace Program.Context

open Session

variable (context : Context) {Act : ∀ ⦃α : Type⦄, Session α → Prop}

/-- The paths that the environment adds, whatever they lead to. -/
def extraPieces : List String :=
  ((context.env context.config.tool.extraVariable).map Extra.pieces).getD []

/-- One part of locating resources. -/
inductive Part : ∀ ⦃α : Type⦄, Session α → Prop where
  /-- Something is known already. -/
  | given {α : Type} (outcome : Except Failure α) : Part (Session.ofExcept outcome)
  /-- The working directory is asked for. -/
  | here : Part (do return (← get).cwd)
  /-- An entry is made. -/
  | note (note : Note) : Part (Journal.write note)
  /-- The links of the path of the executable are followed. -/
  | relocate {path : String} (h : context.executable = .ok path) (cwd : String) :
      Part (Root.relocated cwd Session.probe.realpath context.config.tool
        context.config.resourceOffset path)
  /-- A list in a directory of the system is read. -/
  | readList {dir : String} (h : dir ∈ context.config.systemDirs) :
      Part (Session.probe.readText (Path.join [dir, Dirlist.fileName]))
  /-- It is asked whether a path that the environment adds is a directory. -/
  | isDirectory {piece : String} (h : piece ∈ context.extraPieces) :
      Part (Session.probe.isDirectory piece)

variable {context}

theorem madeOf_pure {α : Type} (a : α) : MadeOf context.Part (pure a : Session α) :=
  .act (.given (.ok a))

theorem madeOf_throw {α : Type} (failure : Failure) :
    MadeOf context.Part (throw failure : Session α) :=
  .act (.given (.error failure))

theorem madeOf_lift {α : Type} (outcome : Except Failure α) :
    MadeOf context.Part (Root.lift outcome : Session α) := by
  cases outcome with
  | ok a => exact madeOf_pure a
  | error failure => exact madeOf_throw failure

theorem madeOf_resolve (cwd : String) (sources : List RootSource) :
    MadeOf context.Part (Root.resolve (context.rootContext cwd) sources) := by
  rw [Root.resolve_eq]
  cases sources.find? (context.rootContext cwd).applies with
  | none => exact madeOf_throw _
  | some source =>
    refine .bind ?_ fun root ↦ .bind (.act (.note root.foundNote)) fun _ ↦ madeOf_pure root
    cases source with
    | libdir => exact madeOf_pure _
    | uninstalled => exact madeOf_pure _
    | relocatable =>
      refine .bind ?_ fun _ ↦ madeOf_pure _
      show MadeOf context.Part (Session.ofExcept context.executable >>= fun executable ↦
        Root.relocated cwd Session.probe.realpath context.config.tool
          context.config.resourceOffset executable)
      -- The path is asked about only if there is one.
      cases hexecutable : context.executable with
      | ok path =>
        have hsame : (Session.ofExcept (.ok path) >>= fun executable ↦
            Root.relocated cwd Session.probe.realpath context.config.tool
              context.config.resourceOffset executable) =
            Root.relocated cwd Session.probe.realpath context.config.tool
              context.config.resourceOffset path := pure_bind path _
        rw [hsame]
        exact .act (.relocate hexecutable cwd)
      | error failure => exact madeOf_throw failure

theorem madeOf_expand (cwd : String) {dirs : List String}
    (h : ∀ dir ∈ dirs, dir ∈ context.config.systemDirs) :
    MadeOf context.Part (Dirlist.expand cwd Session.probe.readText dirs) := by
  induction dirs with
  | nil => exact madeOf_pure []
  | cons dir dirs ih =>
    rw [Dirlist.expand_cons]
    exact .bind (.act (.readList (h dir List.mem_cons_self))) fun _ ↦
      .bind (ih fun dir hdir ↦ h dir (List.mem_cons_of_mem _ hdir)) fun _ ↦ madeOf_pure _

theorem madeOf_isUsable (cwd : String) {piece : String} (h : piece ∈ context.extraPieces) :
    MadeOf context.Part ((context.host cwd).isUsable piece) :=
  .tryCatch (.act (.isDirectory h)) fun failure ↦ .bind (madeOf_lift failure.message) fun _ ↦
    .bind (.act (.note _)) fun _ ↦ madeOf_pure false

theorem madeOf_select (cwd : String) {pieces : List String}
    (h : ∀ piece ∈ pieces, piece ∈ context.extraPieces) :
    MadeOf context.Part (Extra.select (context.host cwd).isUsable pieces) := by
  induction pieces with
  | nil => exact madeOf_pure []
  | cons piece rest ih =>
    exact .bind (madeOf_isUsable cwd (h piece List.mem_cons_self)) fun _ ↦
      .bind (ih fun piece hpiece ↦ h piece (List.mem_cons_of_mem _ hpiece)) fun _ ↦ madeOf_pure _

variable (context)

/-- **What locating resources is made of.** -/
theorem madeOf_locate : MadeOf context.Part context.locate := by
  have hhere : context.locate = (do return (← get).cwd) >>= fun cwd ↦
      (context.host cwd).locate context.config context.userIncludes := rfl
  rw [hhere]
  exact .bind (.act .here) fun cwd ↦ .bind (.act (.note _)) fun _ ↦
    .bind (madeOf_resolve cwd RootSource.all) fun _ ↦
      .bind (madeOf_expand cwd fun _ h ↦ h) fun _ ↦ .bind (madeOf_select cwd fun _ h ↦ h) fun _ ↦
        .bind (.act (.note _)) fun _ ↦ madeOf_pure _

variable {context}

/-- Every part is a question or an entry. -/
theorem Part.inquiry {α : Type} {session : Session α} (h : context.Part session) :
    Inquiry session := by
  cases h with
  | given outcome => exact .ask (fun _ _ _ ↦ outcome) fun w ↦ runIn_ofExcept outcome w
  | here => exact .ask (fun _ cwd _ ↦ .ok cwd) fun _ ↦ rfl
  | note note => exact .note note
  | relocate _ cwd =>
    exact .ask (fun disk here _ ↦ Root.relocated cwd (disk.probe here).realpath _ _ _) fun w ↦
      Root.runIn_relocated cwd _ _ _ w
  | readList _ =>
    exact .ask (fun disk here _ ↦ (disk.probe here).readText _) fun w ↦ runIn_probe_readText _ w
  | isDirectory _ =>
    exact .ask (fun disk here _ ↦ (disk.probe here).isDirectory _) fun w ↦
      runIn_probe_isDirectory _ w

end Program.Context

end ResourceLocator
