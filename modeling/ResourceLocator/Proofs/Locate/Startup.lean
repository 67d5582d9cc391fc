import ResourceLocator.Proofs.Locate.Layers
import ResourceLocator.Proofs.Locate.Relocation

/-!
# How locating resources fails

Locating resources fails in two ways, and in this order (`Context.locate_cases`). It cannot *start*
if neither variable says where the resources are and there is no canonical path of an executable to
go by. Once there is a root, it fails only if a list of directories that is there cannot be read.
Of two failures the first is a startup fault and the second a general one.
-/

namespace ResourceLocator

variable {w after : World}

/-! ### Lists of directories -/

namespace Dirlist

/-- Whether the list in some directory is there and cannot be read. -/
def cannotRead (fs : FileSystem) (cwd : String) (dirs : List String) : Bool :=
  dirs.any fun dir ↦ !((fs.probe cwd).readText (Path.join [dir, fileName])).isOk

/-- **The system layer fails** if and only if a list cannot be read. -/
theorem runIn_expand_cases (cwd : String) (dirs : List String) (w : World) :
    (cannotRead w.disk w.cwd dirs = true ∧ ∃ failure, failure.IsGeneral ∧
      (expand cwd Session.probe.readText dirs).runIn w = (.error failure, w)) ∨
    cannotRead w.disk w.cwd dirs = false ∧ ∃ system,
      (expand cwd Session.probe.readText dirs).runIn w = (.ok system, w) := by
  induction dirs with
  | nil => exact .inr ⟨rfl, [], rfl⟩
  | cons dir dirs ih =>
    have hask := Session.runIn_probe_readText (Path.join [dir, fileName]) w
    rw [expand_cons, cannotRead, List.any_cons]
    cases hread : (w.disk.probe w.cwd).readText (Path.join [dir, fileName]) with
    | error failure =>
      rw [hread] at hask
      exact .inl ⟨rfl, failure, FileSystem.isGeneral_of_readText hread,
        Session.runIn_bind_of_error hask _⟩
    | ok content =>
      rw [hread] at hask
      rw [Session.runIn_bind_of_ok hask]
      rcases ih with ⟨hcannot, failure, hgeneral, hrest⟩ | ⟨hcan, system, hrest⟩
      · exact .inl ⟨hcannot, failure, hgeneral, Session.runIn_bind_of_error hrest _⟩
      · exact .inr ⟨hcan, _, Session.runIn_bind_of_ok hrest _⟩

end Dirlist

/-! ### The root -/

/-- The directory beside an executable, in a session. -/
theorem Root.runIn_relocated (cwd : String) (tool : Tool) (offset executable : String) (w : World) :
    (relocated cwd Session.probe.realpath tool offset executable).runIn w =
      (relocated cwd (w.disk.probe w.cwd).realpath tool offset executable, w) := by
  have hask := Session.runIn_probe_realpath executable w
  cases habsolute : Path.isAbsolute executable with
  | false =>
    rw [relocated_of_relative habsolute, relocated, habsolute]
    rfl
  | true =>
    rw [relocated, habsolute]
    cases hreal : (w.disk.probe w.cwd).realpath executable with
    | ok canonical =>
      rw [hreal] at hask
      rw [relocated_of_realpath habsolute hreal]
      exact Session.runIn_bind_of_ok (Session.runIn_tryCatch_of_ok hask _) _
    | error failure =>
      rw [hreal] at hask
      obtain ⟨reason, hreason⟩ := (FileSystem.isGeneral_of_realpath hreal).exists_message
      have hrecover := Session.runIn_tryCatch_of_error hask fun failure ↦ do
        let reason ← lift failure.message
        throw (.startup (.notCanonical executable reason))
      rw [relocated_of_failure habsolute hreal, hreason]
      rw [hreason] at hrecover
      exact Session.runIn_bind_of_error hrecover _

namespace Program.Context

variable (context : Context)

/-- Whether there is no canonical path of an executable: it cannot be determined, is not absolute,
or cannot be canonicalized. -/
def lacksExecutable (w : World) : Bool :=
  match context.executable with
  | .error _ => true
  | .ok path => !Path.isAbsolute path || !((w.disk.probe w.cwd).realpath path).isOk

/-- Whether there is nothing to start from: no variable says where the resources are, and there is
no executable to go by. -/
def cannotStart (w : World) : Bool :=
  (context.env.nonempty? context.config.tool.libdirVariable).isNone &&
    (context.env.nonempty? context.config.tool.uninstalledVariable).isNone &&
    context.lacksExecutable w

/-- What the search for the root goes by in a session. -/
def rootContext (cwd : String) : RootContext Session :=
  (context.host cwd).rootContext context.config

/-- An executable that cannot be determined is a startup fault. -/
def HasStartupFaults : Prop :=
  ∀ failure, context.executable = .error failure → ∃ fault, failure = .startup fault

variable {context}

/-- **Without an executable** there is a startup fault, and otherwise a directory beside it. -/
theorem runIn_beside_cases (hfaults : context.HasStartupFaults) (cwd : String) (w : World) :
    (context.lacksExecutable w = true ∧ ∃ fault,
      ((context.rootContext cwd).beside.runIn w).1 = .error (.startup fault)) ∨
    context.lacksExecutable w = false ∧ ∃ dir,
      ((context.rootContext cwd).beside.runIn w).1 = .ok dir := by
  have hbeside : (context.rootContext cwd).beside = Session.ofExcept context.executable >>=
      Root.relocated cwd Session.probe.realpath context.config.tool
        context.config.resourceOffset := rfl
  rw [hbeside, lacksExecutable]
  have hask := Session.runIn_ofExcept context.executable w
  cases hexecutable : context.executable with
  | error failure =>
    obtain ⟨fault, rfl⟩ := hfaults failure hexecutable
    rw [hexecutable] at hask
    exact .inl ⟨rfl, fault, congrArg Prod.fst (Session.runIn_bind_of_error hask _)⟩
  | ok path =>
    rw [hexecutable] at hask
    rw [Session.runIn_bind_of_ok hask, Root.runIn_relocated]
    cases habsolute : Path.isAbsolute path with
    | false => exact .inl ⟨by simp [habsolute], _, Root.relocated_of_relative habsolute⟩
    | true => cases hreal : (w.disk.probe w.cwd).realpath path with
      | error failure =>
        obtain ⟨reason, hreason⟩ := (FileSystem.isGeneral_of_realpath hreal).exists_message
        refine .inl ⟨by simp [hreal, Except.isOk, Except.toBool], .notCanonical path reason,
          (Root.relocated_of_failure habsolute hreal).trans ?_⟩
        rw [hreason]
        rfl
      | ok canonical =>
        exact .inr ⟨by simp [habsolute, hreal, Except.isOk, Except.toBool], _,
          Root.relocated_of_realpath habsolute hreal⟩

/-- **The search for a root fails** if and only if there is nothing to start from. -/
theorem search_cases (hfaults : context.HasStartupFaults) (cwd : String) (w : World) :
    (context.cannotStart w = true ∧ ∃ fault,
      (Root.search (context.rootContext cwd) RootSource.all w).outcome = .error (.startup fault)) ∨
    context.cannotStart w = false ∧ ∃ root,
      (Root.search (context.rootContext cwd) RootSource.all w).outcome = .ok root := by
  rw [cannotStart]
  cases hlibdir : context.env.nonempty? context.config.tool.libdirVariable with
  | some dir =>
    have hfirst : RootSource.all.find? (context.rootContext cwd).applies = some .libdir := by
      have happlies : (context.rootContext cwd).applies .libdir = true :=
        Option.isSome_iff_exists.2 ⟨dir, hlibdir⟩
      rw [RootSource.all, List.find?_cons_of_pos happlies]
    obtain ⟨_, -, -, houtcome⟩ := Root.outcome_search_libdir (w := w) hfirst
    exact .inr ⟨rfl, _, houtcome⟩
  | none =>
    have hnot : ¬(context.rootContext cwd).applies .libdir = true := fun h ↦ by
      obtain ⟨dir, hdir⟩ := Option.isSome_iff_exists.1 h
      cases hlibdir.symm.trans hdir
    cases huninstalled : context.env.nonempty? context.config.tool.uninstalledVariable with
    | some value =>
      have hfirst : RootSource.all.find? (context.rootContext cwd).applies = some .uninstalled := by
        have happlies : (context.rootContext cwd).applies .uninstalled = true :=
          Option.isSome_iff_exists.2 ⟨value, huninstalled⟩
        rw [RootSource.all, List.find?_cons_of_neg hnot, List.find?_cons_of_pos happlies]
      exact .inr ⟨rfl, _, Root.outcome_search_uninstalled hfirst⟩
    | none =>
      have hfirst : RootSource.all.find? (context.rootContext cwd).applies = some .relocatable := by
        have hnot' : ¬(context.rootContext cwd).applies .uninstalled = true := fun h ↦ by
          obtain ⟨value, hvalue⟩ := Option.isSome_iff_exists.1 h
          cases huninstalled.symm.trans hvalue
        rw [RootSource.all, List.find?_cons_of_neg hnot, List.find?_cons_of_neg hnot']
        rfl
      rw [Root.outcome_search_relocatable hfirst]
      rcases runIn_beside_cases hfaults cwd w with ⟨hlacks, fault, hbeside⟩ | ⟨hhas, dir, hbeside⟩
      · exact .inl ⟨hlacks, fault, by rw [hbeside]; rfl⟩
      · exact .inr ⟨hhas, _, by rw [hbeside]; rfl⟩

/-! ### Locating -/

/-- The world in which the search for the root begins. -/
def searching (context : Context) (w : World) : World :=
  w.noted (Located.startNote context.config context.userIncludes)

/-- The world in which the lists are read. -/
def reading (context : Context) (w : World) : World :=
  (Root.search (context.rootContext w.cwd) RootSource.all (context.searching w)).world

/-- Entries do not change the working directory, and none but them is made before the lists are
read. -/
theorem cwd_reading {root : Root} (h : (Root.search (context.rootContext w.cwd) RootSource.all
    (context.searching w)).outcome = .ok root) : (context.reading w).cwd = w.cwd := by
  have hresolve := Root.runIn_resolve (context.rootContext w.cwd) RootSource.all
    (context.searching w)
  rw [h] at hresolve
  have hfound := Root.eq_noted_of_runIn_resolve (context.rootContext w.cwd)
    (Session.isQuestion_ofExcept _) Session.isQuestion_probe_realpath hresolve
  rw [reading, hfound]
  exact (context.logged_rooted w root).cwd

/-- **How the first part of locating ends.** -/
theorem base_cases (hfaults : context.HasStartupFaults) (w : World) :
    (context.cannotStart (context.searching w) = true ∧ ∃ fault,
      (((context.host w.cwd).base context.config context.userIncludes).runIn w).1 =
        .error (.startup fault)) ∨
    context.cannotStart (context.searching w) = false ∧
      ((Dirlist.cannotRead (context.reading w).disk w.cwd context.config.systemDirs = true ∧
        ∃ failure, failure.IsGeneral ∧
          (((context.host w.cwd).base context.config context.userIncludes).runIn w).1 =
            .error failure) ∨
      Dirlist.cannotRead (context.reading w).disk w.cwd context.config.systemDirs = false ∧
        ∃ base, (((context.host w.cwd).base context.config context.userIncludes).runIn w).1 =
          .ok base) := by
  have hstart := Session.runIn_bind_of_ok
    (Journal.runIn_write (Located.startNote context.config context.userIncludes) w) fun _ ↦ do
      let root ← Root.resolve (context.rootContext w.cwd) RootSource.all
      let system ← Dirlist.expand w.cwd Session.probe.readText context.config.systemDirs
      return (root, system)
  have hresolve := Root.runIn_resolve (context.rootContext w.cwd) RootSource.all
    (context.searching w)
  rcases search_cases hfaults w.cwd (context.searching w) with
    ⟨hcannot, fault, houtcome⟩ | ⟨hcan, root, houtcome⟩
  · rw [houtcome] at hresolve
    exact .inl ⟨hcannot, fault,
      congrArg Prod.fst (hstart.trans (Session.runIn_bind_of_error hresolve _))⟩
  · have hcwd := cwd_reading houtcome
    rw [houtcome] at hresolve
    have hrest := hstart.trans (Session.runIn_bind_of_ok hresolve _)
    have hcases := Dirlist.runIn_expand_cases w.cwd context.config.systemDirs (context.reading w)
    -- The lists are looked for in the directory in which the search began.
    rw [hcwd] at hcases
    rcases hcases with ⟨hcannot, failure, hgeneral, hexpand⟩ | ⟨hreads, system, hexpand⟩
    · exact .inr ⟨hcan, .inl ⟨hcannot, failure, hgeneral,
        congrArg Prod.fst (hrest.trans (Session.runIn_bind_of_error hexpand _))⟩⟩
    · exact .inr ⟨hcan, .inr ⟨hreads, _,
        congrArg Prod.fst (hrest.trans (Session.runIn_bind_of_ok hexpand _))⟩⟩

/-- **How locating resources ends**: in a startup fault if there is nothing to start from, else in a
general failure if a list cannot be read, and otherwise well. -/
theorem locate_cases (hfaults : context.HasStartupFaults) (w : World) :
    (context.cannotStart (context.searching w) = true ∧ ∃ fault after,
      context.locate.runIn w = (.error (.startup fault), after)) ∨
    context.cannotStart (context.searching w) = false ∧
      ((Dirlist.cannotRead (context.reading w).disk w.cwd context.config.systemDirs = true ∧
        ∃ failure after, failure.IsGeneral ∧ context.locate.runIn w = (.error failure, after)) ∨
      Dirlist.cannotRead (context.reading w).disk w.cwd context.config.systemDirs = false ∧
        ∃ located after, context.locate.runIn w = (.ok located, after)) := by
  rcases context.runIn_locate w with
    ⟨failure, after, hbase, hlocate⟩ | ⟨base, after, hbase, hlocate⟩
  · rcases base_cases hfaults w with
      ⟨hcannot, fault, hfault⟩ | ⟨hcan, ⟨hcannot, fault, hgeneral, hfault⟩ | ⟨-, _, hok⟩⟩
    · rw [hbase] at hfault
      obtain rfl := Except.error.inj hfault
      exact .inl ⟨hcannot, fault, after, hlocate⟩
    · rw [hbase] at hfault
      obtain rfl := Except.error.inj hfault
      exact .inr ⟨hcan, .inl ⟨hcannot, failure, after, hgeneral, hlocate⟩⟩
    · rw [hbase] at hok
      cases hok
  · rcases base_cases hfaults w with
      ⟨-, _, hfault⟩ | ⟨hcan, ⟨-, _, -, hfault⟩ | ⟨hreads, -⟩⟩
    · rw [hbase] at hfault
      cases hfault
    · rw [hbase] at hfault
      cases hfault
    · exact .inr ⟨hcan, .inr ⟨hreads, _, after, hlocate⟩⟩

end Program.Context

end ResourceLocator
