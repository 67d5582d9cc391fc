import ResourceLocator.Locate.Root
import ResourceLocator.Proofs.Log.Journal

/-!
# The first applicable way to a root

Which way is taken is settled by two variables alone (`RootContext.applies`). In any monad a list of
ways does what its first applicable way does by itself, and fails if there is none (`resolve_eq`):
an induction on the list, whose step passes over one way. Neither a way that is passed over nor one
that comes later asks for the executable.

What this comes to in a session is read off a run in which the calls of the executable are counted.
The executable and the file system may there do and throw what they like, so that a failure of
theirs may look like that of a list without an applicable way; the count tells the two apart.
-/

namespace ResourceLocator

theorem Environment.nonempty?_eq_some_iff {env : Environment} {name value : String} :
    env.nonempty? name = some value ↔ env name = some value ∧ value ≠ "" := by
  simp [nonempty?, Option.filter_eq_some_iff]

namespace RootContext

variable {m : Type → Type}

/-- Whether a way applies. The first two need their variable to be set and not empty. -/
def applies (context : RootContext m) : RootSource → Bool
  | .libdir => (context.env.nonempty? context.tool.libdirVariable).isSome
  | .uninstalled => (context.env.nonempty? context.tool.uninstalledVariable).isSome
  | .relocatable => true

theorem applies_libdir_iff {context : RootContext m} : context.applies .libdir = true ↔
    ∃ dir, context.env context.tool.libdirVariable = some dir ∧ dir ≠ "" := by
  simp only [applies, Option.isSome_iff_exists, Environment.nonempty?_eq_some_iff]

theorem applies_uninstalled_iff {context : RootContext m} : context.applies .uninstalled = true ↔
    ∃ value, context.env context.tool.uninstalledVariable = some value ∧ value ≠ "" := by
  simp only [applies, Option.isSome_iff_exists, Environment.nonempty?_eq_some_iff]

variable [Monad m] [MonadExceptOf Failure m]

/-- The directory of resources beside the executable. -/
def beside (context : RootContext m) : m String := do
  let executable ← context.executable
  Root.relocated context.cwd context.realpath context.tool context.offset executable

/-- The root that a way gives by itself, provided that it applies. -/
def resolution (context : RootContext m) : RootSource → m Root
  | .libdir => return ⟨.libdir, (context.env.nonempty? context.tool.libdirVariable).toList⟩
  | .uninstalled => return ⟨.uninstalled, context.developmentDirs⟩
  | .relocatable => return ⟨.relocatable, [← context.beside]⟩

end RootContext

namespace Root

/-! ### In any monad -/

section Equations

variable {m : Type → Type} [Monad m] [LawfulMonad m] [MonadExceptOf Failure m]
  {context : RootContext m} {source : RootSource} {rest : List RootSource}

/-- What is done with a root that has been found. -/
def found (context : RootContext m) (root : Root) : m Root := do
  context.note root.foundNote
  return root

/-- A way that does not apply is passed over. -/
theorem resolve_cons_of_not_applies (h : context.applies source = false) :
    resolve context (source :: rest) = resolve context rest := by
  cases source with
  | libdir =>
    have hnone : context.env.nonempty? context.tool.libdirVariable = none := by
      simpa [RootContext.applies] using h
    simp [resolve, ofSource?, hnone]
  | uninstalled =>
    have hnone : context.env.nonempty? context.tool.uninstalledVariable = none := by
      simpa [RootContext.applies] using h
    simp [resolve, ofSource?, hnone]
  | relocatable => cases h

/-- A way that applies is taken. -/
theorem resolve_cons_of_applies (h : context.applies source = true) :
    resolve context (source :: rest) = context.resolution source >>= found context := by
  cases source with
  | libdir =>
    obtain ⟨dir, hdir⟩ := Option.isSome_iff_exists.1 h
    simp [resolve, ofSource?, RootContext.resolution, found, hdir]
  | uninstalled =>
    obtain ⟨value, hvalue⟩ := Option.isSome_iff_exists.1 h
    simp [resolve, ofSource?, RootContext.resolution, found, hvalue]
  | relocatable =>
    simp [resolve, ofSource?, RootContext.resolution, RootContext.beside, found]

/-- **A list does what its first applicable way does.** -/
theorem resolve_eq (context : RootContext m) (sources : List RootSource) :
    resolve context sources = match sources.find? context.applies with
      | none => throw (.startup .noStrategy)
      | some source => context.resolution source >>= found context := by
  induction sources with
  | nil => rfl
  | cons source rest ih =>
    cases happlies : context.applies source with
    | false =>
      rw [resolve_cons_of_not_applies happlies, List.find?_cons_of_neg (by simp [happlies])]
      exact ih
    | true => rw [resolve_cons_of_applies happlies, List.find?_cons_of_pos happlies]

/-- **Two variables matter**, and no others. -/
theorem resolve_congr_env {env : Environment} (context : RootContext m)
    (hlibdir : env context.tool.libdirVariable = context.env context.tool.libdirVariable)
    (huninstalled :
      env context.tool.uninstalledVariable = context.env context.tool.uninstalledVariable)
    (sources : List RootSource) :
    resolve { context with env } sources = resolve context sources := by
  have happlies : RootContext.applies { context with env } = context.applies := by
    funext source
    cases source <;> simp [RootContext.applies, Environment.nonempty?, hlibdir, huninstalled]
  have hresolution : RootContext.resolution { context with env } = context.resolution := by
    funext source
    cases source with
    | libdir => simp [RootContext.resolution, Environment.nonempty?, hlibdir]
    | uninstalled => rfl
    | relocatable => rfl
  rw [resolve_eq, resolve_eq, happlies, hresolution]
  rfl

end Equations

/-! ### In a session -/

/-- The context in which entries are made in the debug log. -/
def loggedContext (context : RootContext Session) : RootContext Session :=
  { context with note := Journal.write }

/-- The context in which, besides, the calls of the executable are counted. -/
def countedContext (context : RootContext Session) : RootContext Counted where
  cwd := context.cwd
  env := context.env
  tool := context.tool
  offset := context.offset
  developmentDirs := context.developmentDirs
  executable := .call context.executable
  realpath path := .quiet (context.realpath path)
  note note := .quiet (Journal.write note)

/-- How a search for a root has gone. -/
structure Search where
  /-- What it came to. -/
  outcome : Except Failure Root
  /-- The world afterwards. -/
  world : World
  /-- How often the executable was called. -/
  calls : Nat

/-- Searches a world for a root in a list of ways. -/
def search (context : RootContext Session) (sources : List RootSource) (w : World) : Search :=
  let run := (resolve (countedContext context) sources).runIn w 0
  ⟨run.1, run.2.1, run.2.2⟩

/-- How often a way calls the executable. -/
def callsOf : RootSource → Nat
  | .relocatable => 1
  | _ => 0

theorem quiet_lift {α : Type} (outcome : Except Failure α) :
    Counted.quiet (lift outcome) = lift outcome := by
  cases outcome <;> rfl

/-- What is done with the path of the executable does not count. -/
theorem relocated_quiet (cwd : String) (realpath : String → Session String) (tool : Tool)
    (offset executable : String) :
    relocated cwd (fun path ↦ Counted.quiet (realpath path)) tool offset executable =
      Counted.quiet (relocated cwd realpath tool offset executable) := by
  unfold relocated
  rw [apply_ite Counted.quiet]
  simp only [Counted.quiet_bind, Counted.quiet_tryCatch, Counted.quiet_throw, Counted.quiet_pure,
    quiet_lift]

/-- **Beside the executable takes one call.** -/
theorem runIn_counted_beside (context : RootContext Session) (w : World) (calls : Nat) :
    (countedContext context).beside.runIn w calls =
      ((context.beside.runIn w).1, (context.beside.runIn w).2, calls + 1) := by
  simp only [RootContext.beside, countedContext, relocated_quiet, Counted.runIn_bind,
    Counted.runIn_call, Session.runIn_bind]
  rcases context.executable.runIn w with ⟨outcome, after⟩
  cases outcome <;> rfl

/-- Counting changes nothing about what a way gives. -/
theorem runIn_counted_resolution (context : RootContext Session) (source : RootSource) (w : World) :
    ((countedContext context).resolution source).runIn w 0 =
      (((context.resolution source).runIn w).1, ((context.resolution source).runIn w).2,
        callsOf source) := by
  cases source with
  | libdir => rfl
  | uninstalled => rfl
  | relocatable =>
    simp only [RootContext.resolution, Counted.runIn_bind, runIn_counted_beside,
      Session.runIn_bind, callsOf]
    rcases context.beside.runIn w with ⟨outcome, after⟩
    cases outcome <;> rfl

/-- An entry about the root is made, and the root is given. -/
theorem runIn_counted_found (context : RootContext Session) (root : Root) (w : World)
    (calls : Nat) :
    (found (countedContext context) root).runIn w calls =
      (.ok root, w.noted root.foundNote, calls) := by
  simp only [found, countedContext, Counted.runIn_bind, Counted.runIn_quiet, Journal.runIn_write,
    Counted.runIn_pure]

theorem runIn_found (context : RootContext Session) (root : Root) (w : World) :
    (found (loggedContext context) root).runIn w = (.ok root, w.noted root.foundNote) := by
  simp only [found, loggedContext, Session.runIn_bind, Journal.runIn_write, Session.runIn_pure]

/-! ### Searches that only ask -/

theorem isQuestion_lift {α : Type} (outcome : Except Failure α) :
    Session.IsQuestion (lift outcome) := by
  cases outcome with
  | ok a => exact Session.isQuestion_pure a
  | error failure => exact Session.isQuestion_throw failure

theorem isQuestion_relocated {realpath : String → Session String}
    (hrealpath : ∀ path, Session.IsQuestion (realpath path)) (cwd : String) (tool : Tool)
    (offset executable : String) :
    Session.IsQuestion (relocated cwd realpath tool offset executable) := by
  have hfollow := (hrealpath executable).tryCatch fun failure ↦
    (isQuestion_lift failure.message).bind fun reason ↦
      Session.isQuestion_throw (.startup (.notCanonical executable reason))
  unfold relocated
  split
  · exact (Session.isQuestion_throw _).bind fun _ ↦ hfollow.bind fun _ ↦ Session.isQuestion_pure _
  · exact hfollow.bind fun _ ↦ Session.isQuestion_pure _

theorem isQuestion_resolution {context : RootContext Session}
    (hexecutable : Session.IsQuestion context.executable)
    (hrealpath : ∀ path, Session.IsQuestion (context.realpath path)) (source : RootSource) :
    Session.IsQuestion (context.resolution source) := by
  cases source with
  | libdir => exact Session.isQuestion_pure _
  | uninstalled => exact Session.isQuestion_pure _
  | relocatable =>
    have hbeside : Session.IsQuestion context.beside :=
      hexecutable.bind fun _ ↦ isQuestion_relocated hrealpath _ _ _ _
    exact hbeside.bind fun _ ↦ Session.isQuestion_pure _

/-- **A search that only asks makes one entry**, about the root that it comes to. -/
theorem eq_noted_of_runIn_resolve (context : RootContext Session) {sources : List RootSource}
    {root : Root} {w after : World} (hexecutable : Session.IsQuestion context.executable)
    (hrealpath : ∀ path, Session.IsQuestion (context.realpath path))
    (h : (resolve (loggedContext context) sources).runIn w = (.ok root, after)) :
    after = w.noted root.foundNote := by
  have happlies : (loggedContext context).applies = context.applies := rfl
  rw [resolve_eq, happlies] at h
  cases hfirst : sources.find? context.applies with
  | none =>
    rw [hfirst, Session.runIn_throw] at h
    cases h
  | some source =>
    have hasks := isQuestion_resolution hexecutable hrealpath source w
    have hresolution : (loggedContext context).resolution source = context.resolution source := rfl
    rw [hfirst, Session.runIn_bind, hresolution] at h
    rcases hrun : (context.resolution source).runIn w with ⟨outcome, mid⟩
    rw [hrun] at hasks h
    cases outcome with
    | error failure => cases h
    | ok given =>
      simp only [runIn_found, Prod.mk.injEq, Except.ok.injEq] at h
      obtain ⟨rfl, rfl⟩ := h
      rw [← hasks]

/-! ### Searches with a count -/

section Search

variable {context : RootContext Session} {source : RootSource} {sources : List RootSource}
  {w : World}

theorem search_of_find_eq_none (h : sources.find? context.applies = none) :
    search context sources w = ⟨.error (.startup .noStrategy), w, 0⟩ := by
  have hnone : sources.find? (countedContext context).applies = none := h
  simp only [search, resolve_eq, hnone, Counted.runIn_throw]

theorem search_of_find_eq_some (h : sources.find? context.applies = some source) :
    search context sources w = match (context.resolution source).runIn w with
      | (.ok root, after) => ⟨.ok root, after.noted root.foundNote, callsOf source⟩
      | (.error failure, after) => ⟨.error failure, after, callsOf source⟩ := by
  have hsome : sources.find? (countedContext context).applies = some source := h
  simp only [search, resolve_eq, hsome, Counted.runIn_bind, runIn_counted_resolution]
  rcases (context.resolution source).runIn w with ⟨outcome, after⟩
  cases outcome with
  | ok root => simp only [runIn_counted_found]
  | error failure => rfl

theorem outcome_search (h : sources.find? context.applies = some source) :
    (search context sources w).outcome = ((context.resolution source).runIn w).1 := by
  rw [search_of_find_eq_some h]
  rcases (context.resolution source).runIn w with ⟨outcome, after⟩
  cases outcome <;> rfl

theorem calls_search (context : RootContext Session) (sources : List RootSource) (w : World) :
    (search context sources w).calls =
      if sources.find? context.applies = some .relocatable then 1 else 0 := by
  cases h : sources.find? context.applies with
  | none => rw [search_of_find_eq_none h, if_neg (by simp)]
  | some source =>
    have hcalls : (search context sources w).calls = callsOf source := by
      rw [search_of_find_eq_some h]
      rcases (context.resolution source).runIn w with ⟨outcome, after⟩
      cases outcome <;> rfl
    rw [hcalls]
    cases source <;> rfl

/-- Counting changes neither the outcome nor the world. -/
theorem runIn_resolve (context : RootContext Session) (sources : List RootSource) (w : World) :
    (resolve (loggedContext context) sources).runIn w =
      ((search context sources w).outcome, (search context sources w).world) := by
  have happlies : (loggedContext context).applies = context.applies := rfl
  rw [resolve_eq, happlies]
  cases h : sources.find? context.applies with
  | none => rw [search_of_find_eq_none h, Session.runIn_throw]
  | some source =>
    have hresolution : (loggedContext context).resolution source = context.resolution source := rfl
    rw [search_of_find_eq_some h, Session.runIn_bind, hresolution]
    rcases (context.resolution source).runIn w with ⟨outcome, after⟩
    cases outcome with
    | ok root => exact runIn_found context root after
    | error failure => rfl

theorem outcome_search_libdir (h : sources.find? context.applies = some .libdir) :
    ∃ dir, context.env context.tool.libdirVariable = some dir ∧ dir ≠ "" ∧
      (search context sources w).outcome = .ok ⟨.libdir, [dir]⟩ := by
  have happlies : context.applies .libdir = true := List.find?_some h
  obtain ⟨dir, hdir⟩ := Option.isSome_iff_exists.1 happlies
  obtain ⟨hset, hne⟩ := Environment.nonempty?_eq_some_iff.1 hdir
  refine ⟨dir, hset, hne, ?_⟩
  rw [outcome_search h, RootContext.resolution, hdir]
  rfl

theorem outcome_search_uninstalled (h : sources.find? context.applies = some .uninstalled) :
    (search context sources w).outcome = .ok ⟨.uninstalled, context.developmentDirs⟩ :=
  outcome_search h

theorem outcome_search_relocatable (h : sources.find? context.applies = some .relocatable) :
    (search context sources w).outcome =
      (context.beside.runIn w).1.map fun dir ↦ ⟨.relocatable, [dir]⟩ := by
  rw [outcome_search h, RootContext.resolution, Session.runIn_bind]
  rcases context.beside.runIn w with ⟨outcome, after⟩
  cases outcome <;> rfl

/-- **How a search can end**, by the way that it takes. -/
theorem outcome_cases (context : RootContext Session) (sources : List RootSource) (w : World) :
    (sources.find? context.applies = none ∧
      (search context sources w).outcome = .error (.startup .noStrategy)) ∨
    (∃ dir, (search context sources w).outcome = .ok ⟨.libdir, [dir]⟩) ∨
    (search context sources w).outcome = .ok ⟨.uninstalled, context.developmentDirs⟩ ∨
    (∃ dir, (search context sources w).outcome = .ok ⟨.relocatable, [dir]⟩) ∨
    ∃ failure, sources.find? context.applies = some .relocatable ∧
      (context.beside.runIn w).1 = .error failure ∧
      (search context sources w).outcome = .error failure := by
  cases hfirst : sources.find? context.applies with
  | none => exact .inl ⟨rfl, congrArg Search.outcome (search_of_find_eq_none hfirst)⟩
  | some source =>
    cases source with
    | libdir =>
      obtain ⟨dir, -, -, hdir⟩ := outcome_search_libdir hfirst
      exact .inr (.inl ⟨dir, hdir⟩)
    | uninstalled => exact .inr (.inr (.inl (outcome_search_uninstalled hfirst)))
    | relocatable =>
      rw [outcome_search_relocatable hfirst]
      cases (context.beside.runIn w).1 with
      | ok dir => exact .inr (.inr (.inr (.inl ⟨dir, rfl⟩)))
      | error failure => exact .inr (.inr (.inr (.inr ⟨failure, rfl, rfl, rfl⟩)))

/-- **A search fails for one of two reasons**: no way applies, or what is done beside the
executable fails. -/
theorem failure_cases {failure : Failure}
    (h : (search context sources w).outcome = .error failure) :
    (sources.find? context.applies = none ∧ failure = .startup .noStrategy) ∨
      (sources.find? context.applies = some .relocatable ∧
        (context.beside.runIn w).1 = .error failure) := by
  rcases outcome_cases context sources w with
    ⟨hnone, hfault⟩ | ⟨_, hroot⟩ | hroot | ⟨_, hroot⟩ | ⟨found, hfirst, hbeside, hfault⟩
  · exact .inl ⟨hnone, Except.error.inj (h.symm.trans hfault)⟩
  · cases h.symm.trans hroot
  · cases h.symm.trans hroot
  · cases h.symm.trans hroot
  · obtain rfl := Except.error.inj (h.symm.trans hfault)
    exact .inr ⟨hfirst, hbeside⟩

/-- **The fault of a search of its own** is told from an equal one of the executable by the
count. -/
theorem outcome_eq_noStrategy_iff : (∀ source ∈ sources, context.applies source = false) ↔
    (search context sources w).outcome = .error (.startup .noStrategy) ∧
      (search context sources w).calls = 0 := by
  constructor
  · intro h
    have hnone : sources.find? context.applies = none :=
      List.find?_eq_none.2 fun source hsource ↦ by simp [h source hsource]
    rw [search_of_find_eq_none hnone]
    exact ⟨rfl, rfl⟩
  · rintro ⟨houtcome, hcalls⟩ source hsource
    rcases failure_cases houtcome with ⟨hnone, -⟩ | ⟨hfirst, -⟩
    · exact Bool.of_not_eq_true (List.find?_eq_none.1 hnone source hsource)
    · rw [calls_search, if_pos hfirst] at hcalls
      cases hcalls

/-- **A root has one directory**, unless it is that of a tool which is not installed. -/
theorem exists_dir_of_outcome_search {root : Root}
    (h : (search context sources w).outcome = .ok root) (hsource : root.source ≠ .uninstalled) :
    ∃ dir, root.dirs = [dir] := by
  rcases outcome_cases context sources w with
    ⟨-, hfault⟩ | ⟨dir, hroot⟩ | hroot | ⟨dir, hroot⟩ | ⟨_, -, -, hfault⟩
  · cases h.symm.trans hfault
  · obtain rfl := Except.ok.inj (h.symm.trans hroot)
    exact ⟨dir, rfl⟩
  · obtain rfl := Except.ok.inj (h.symm.trans hroot)
    exact absurd rfl hsource
  · obtain rfl := Except.ok.inj (h.symm.trans hroot)
    exact ⟨dir, rfl⟩
  · cases h.symm.trans hfault

/-- **What is not called does not matter**, and neither does what would be done with its answer. -/
theorem search_eq_of_calls_eq_zero (h : (search context sources w).calls = 0)
    (executable : Session String) (realpath : String → Session String) (offset : String) :
    search { context with executable, realpath, offset } sources w = search context sources w := by
  have happlies : RootContext.applies { context with executable, realpath, offset } =
      context.applies := rfl
  cases hfirst : sources.find? context.applies with
  | none => rw [search_of_find_eq_none hfirst, search_of_find_eq_none (happlies ▸ hfirst)]
  | some source =>
    rw [search_of_find_eq_some hfirst, search_of_find_eq_some (happlies ▸ hfirst)]
    cases source with
    | libdir => rfl
    | uninstalled => rfl
    | relocatable =>
      rw [calls_search, if_pos hfirst] at h
      cases h

/-- **The first applicable way settles the root.** A list of ways, in any order and with any
repetitions, gives what its first applicable way gives. It fails with a startup fault of its own if
there is none, and otherwise only as what is done beside the executable does. The executable is
called if that is where the search comes to, and then once; if it is not called, no other
executable, canonical path or offset would make a difference. The count also tells the fault of the
search from an equal one that the executable may end with. -/
theorem search_takes_first_applicable (context : RootContext Session)
    (sources : List RootSource) (w : World) :
    let result := search context sources w
    let first := sources.find? context.applies
    (resolve (loggedContext context) sources).runIn w = (result.outcome, result.world) ∧
    (context.applies .libdir = true ↔
      ∃ dir, context.env context.tool.libdirVariable = some dir ∧ dir ≠ "") ∧
    (context.applies .uninstalled = true ↔
      ∃ value, context.env context.tool.uninstalledVariable = some value ∧ value ≠ "") ∧
    context.applies .relocatable = true ∧
    (first = none → result.outcome = .error (.startup .noStrategy)) ∧
    StartupFault.message .noStrategy = "No resource root strategy applied" ∧
    (first = some .libdir → ∃ dir, context.env context.tool.libdirVariable = some dir ∧ dir ≠ "" ∧
      result.outcome = .ok ⟨.libdir, [dir]⟩) ∧
    (first = some .uninstalled → result.outcome = .ok ⟨.uninstalled, context.developmentDirs⟩) ∧
    (first = some .relocatable → result.outcome =
      (context.beside.runIn w).1.map fun dir ↦ ⟨.relocatable, [dir]⟩) ∧
    (∀ failure, result.outcome = .error failure →
      (first = none ∧ failure = .startup .noStrategy) ∨
      (first = some .relocatable ∧ (context.beside.runIn w).1 = .error failure)) ∧
    ((∀ source ∈ sources, context.applies source = false) ↔
      result.outcome = .error (.startup .noStrategy) ∧ result.calls = 0) ∧
    result.calls = (if first = some .relocatable then 1 else 0) ∧
    (result.calls = 0 → ∀ executable realpath offset,
      search { context with executable, realpath, offset } sources w = result) ∧
    (∀ root, result.outcome = .ok root → root.source ≠ .uninstalled →
      ∃ dir, root.dirs = [dir]) := by
  intro result first
  exact ⟨runIn_resolve context sources w, RootContext.applies_libdir_iff,
    RootContext.applies_uninstalled_iff, rfl,
    fun h ↦ congrArg Search.outcome (search_of_find_eq_none h), rfl, outcome_search_libdir,
    outcome_search_uninstalled, outcome_search_relocatable, fun _ ↦ failure_cases,
    outcome_eq_noStrategy_iff, calls_search context sources w, search_eq_of_calls_eq_zero,
    fun _ ↦ exists_dir_of_outcome_search⟩

end Search

end Root

end ResourceLocator
