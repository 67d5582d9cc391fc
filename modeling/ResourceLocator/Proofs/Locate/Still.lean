import ResourceLocator.Proofs.Locate.Startup

/-!
# Locating where no entries are made

As long as no entries are made in the debug log, to locate resources is only to ask: the world stays
as it is, and the answer is that of the disk (`Program.Context.runIn_locate_of_isQuiet`). Each part
of the search is the same in a session as with the disk alone (`Context.stillHost`), question by
question.
-/

namespace ResourceLocator

/-- No entries are made, in a file or on the console. -/
structure World.IsQuiet (w : World) : Prop where
  /-- There is no file for them. -/
  file : w.journal.file = none
  /-- They are not shown. -/
  isVerbose : w.journal.isVerbose = false

variable {w : World}

theorem Journal.runIn_write_of_isQuiet (h : w.IsQuiet) (note : Note) :
    (write note).runIn w = (.ok (), w) := by
  rw [write, Session.runIn_bind_of_ok (Session.runIn_get w), h.file, h.isVerbose]
  rfl

namespace Session

variable {α : Type}

/-- A question that is recovered from is answered like that to the disk of the session. -/
theorem runIn_tryCatch_of_question {session : Session α} {recover : Failure → Session α}
    {outcome : Except Failure α} {answer : Failure → Except Failure α}
    (h : runIn session w = (outcome, w))
    (hrecover : ∀ failure, runIn (recover failure) w = (answer failure, w)) :
    runIn (tryCatch session recover) w = (tryCatch outcome answer, w) := by
  cases outcome with
  | ok a => exact runIn_tryCatch_of_ok h recover
  | error failure => exact (runIn_tryCatch_of_error h recover).trans (hrecover failure)

end Session

open Session

theorem Root.runIn_lift {α : Type} (outcome : Except Failure α) (w : World) :
    (lift outcome : Session α).runIn w = (lift outcome, w) := by
  cases outcome <;> rfl

/-- What the search for the root asks of a disk that stays as it is. -/
def RootContext.still (context : RootContext Session) (w : World) :
    RootContext (Except Failure) where
  cwd := context.cwd
  env := context.env
  tool := context.tool
  offset := context.offset
  developmentDirs := context.developmentDirs
  executable := (context.executable.runIn w).1
  realpath path := ((context.realpath path).runIn w).1
  note _ := .ok ()

/-- The root is found as on the disk alone. -/
theorem Root.runIn_resolve_still (context : RootContext Session)
    (hexecutable : IsQuestion context.executable)
    (hrealpath : ∀ path, IsQuestion (context.realpath path))
    (hnote : ∀ note, (context.note note).runIn w = (.ok (), w)) (sources : List RootSource) :
    (resolve context sources).runIn w = (resolve (context.still w) sources, w) := by
  have hfound : ∀ root, (found context root).runIn w = (found (context.still w) root, w) :=
    fun root ↦ runIn_bind_of_question (hnote _) fun _ ↦ rfl
  have hfollowed : ∀ executable,
      (relocated context.cwd context.realpath context.tool context.offset executable).runIn w =
        (relocated context.cwd (context.still w).realpath context.tool context.offset executable,
          w) := by
    intro executable
    have hask : (context.realpath executable).runIn w =
        ((context.still w).realpath executable, w) := Prod.ext rfl (hrealpath executable w)
    have hthrow : ∀ reason,
        (throw (.startup (.notCanonical executable reason)) : Session String).runIn w =
          (throw (.startup (.notCanonical executable reason)), w) := fun _ ↦ rfl
    have hcanonical := runIn_tryCatch_of_question hask fun failure ↦
      runIn_bind_of_question (Root.runIn_lift failure.message w) hthrow
    unfold relocated
    split
    · rfl
    · exact runIn_bind_of_question hcanonical fun _ ↦ rfl
  rw [resolve_eq, resolve_eq]
  have happlies : (context.still w).applies = context.applies := by
    funext source
    cases source <;> rfl
  rw [happlies]
  cases sources.find? context.applies with
  | none => rfl
  | some source =>
    refine runIn_bind_of_question ?_ hfound
    cases source with
    | libdir => rfl
    | uninstalled => rfl
    | relocatable =>
      have hexecuted : context.executable.runIn w = ((context.still w).executable, w) :=
        Prod.ext rfl (hexecutable w)
      exact runIn_bind_of_question (runIn_bind_of_question hexecuted hfollowed) fun _ ↦ rfl

/-- The system layer is found as on the disk alone. -/
theorem Dirlist.runIn_expand_still (cwd : String) (dirs : List String) (w : World) :
    (expand cwd Session.probe.readText dirs).runIn w =
      (expand cwd (w.disk.probe w.cwd).readText dirs, w) := by
  induction dirs with
  | nil => rfl
  | cons dir dirs ih =>
    rw [expand_cons, expand_cons]
    exact runIn_bind_of_question (runIn_probe_readText _ w) fun _ ↦
      runIn_bind_of_question ih fun _ ↦ rfl

namespace Program.Context

variable (context : Context)

/-- What locating asks of a disk that stays as it is. No entries are made. -/
def stillHost (disk : FileSystem) (cwd : String) : Host (Except Failure) where
  cwd := cwd
  env := context.env
  executable := context.executable
  probe := disk.probe cwd
  note _ := .ok ()

theorem runIn_isUsable_still (h : w.IsQuiet) (path : String) :
    ((context.host w.cwd).isUsable path).runIn w =
      ((context.stillHost w.disk w.cwd).isUsable path, w) :=
  runIn_tryCatch_of_question (runIn_probe_isDirectory path w) fun failure ↦
    runIn_bind_of_question (Root.runIn_lift failure.message w) fun _ ↦
      runIn_bind_of_question (Journal.runIn_write_of_isQuiet h _) fun _ ↦ rfl

theorem runIn_select_still (h : w.IsQuiet) (pieces : List String) :
    (Extra.select (context.host w.cwd).isUsable pieces).runIn w =
      (Extra.select (context.stillHost w.disk w.cwd).isUsable pieces, w) := by
  induction pieces with
  | nil => rfl
  | cons piece rest ih =>
    exact runIn_bind_of_question (context.runIn_isUsable_still h piece) fun _ ↦
      runIn_bind_of_question ih fun _ ↦ rfl

/-- **Where no entries are made, resources are located as on the disk alone**, and the world stays
as it is. -/
theorem runIn_locate_of_isQuiet (h : w.IsQuiet) : context.locate.runIn w =
    ((context.stillHost w.disk w.cwd).locate context.config context.userIncludes, w) := by
  have hnote := Journal.runIn_write_of_isQuiet h
  have hroot := Root.runIn_resolve_still ((context.host w.cwd).rootContext context.config)
    (isQuestion_ofExcept _) isQuestion_probe_realpath hnote RootSource.all
  have hstill : ((context.host w.cwd).rootContext context.config).still w =
      (context.stillHost w.disk w.cwd).rootContext context.config := by
    simp only [RootContext.still, Host.rootContext, host, stillHost, runIn_ofExcept,
      runIn_probe_realpath]
  rw [hstill] at hroot
  rw [locate, runIn_bind_of_ok (runIn_get w)]
  exact runIn_bind_of_question (hnote _) fun _ ↦ runIn_bind_of_question hroot fun _ ↦
    runIn_bind_of_question (Dirlist.runIn_expand_still _ _ w) fun _ ↦
      runIn_bind_of_question (context.runIn_select_still h _) fun _ ↦
        runIn_bind_of_question (hnote _) fun _ ↦ rfl

end Program.Context

end ResourceLocator
