import ResourceLocator.Proofs.Locate.Still
import ResourceLocator.Proofs.Program.Reported

/-!
# The output of a run

A command writes its output after everything that can go wrong: a session that *prints last*
(`Session.PrintsLast`) either ends with success or has written nothing, and every command is one,
since what comes before its first line preserves the output. So a run without success has no output.

What a command shows is the answer of the library (`Program.Context.Answers`). A run that makes no
entries in the debug log prepares its context without changing the disk, so that the answer is the
one that the library gives in the world in which the run begins.
-/

namespace ResourceLocator

/-- Lines as they are written, each with a line break at its end. -/
def Console.text (lines : List String) : String := String.join (lines.map (· ++ "\n"))

/-- Lines are written one after the other. -/
theorem Console.text_append (lines more : List String) :
    Console.text (lines ++ more) = Console.text lines ++ Console.text more := by
  rw [Console.text, List.map_append, String.join_append]
  rfl

/-- What has been written to the standard output. -/
def World.output (w : World) : String := w.effects.output

theorem World.output_eq_of_reported_eq {w after : World} (h : after.reported = w.reported) :
    after.output = w.output :=
  congrArg Prod.fst h

namespace Session

variable {α : Type} {w : World} {lines : List String} {session other : Session ExitCode}

theorem Preserves.output {session : Session α} (h : Preserves World.reported session) :
    Preserves World.output session :=
  h.comp Prod.fst

/-! ### Showing lines -/

/-- A session that ends with success and has written some lines. -/
def Prints (lines : List String) (session : Session ExitCode) : Prop :=
  ∀ w, (runIn session w).1 = .ok .success ∧
    (runIn session w).2.output = w.output ++ Console.text lines

/-- Nothing is written before the lines. -/
theorem Prints.of_bind {session : Session α} {next : α → Session ExitCode}
    (hsucceeds : Succeeds session) (hpreserves : Preserves World.output session)
    (hnext : ∀ a, Prints lines (next a)) : Prints lines (session >>= next) := by
  intro w
  obtain ⟨a, after, hrun⟩ := hsucceeds.exists_ok w
  rw [runIn_bind_of_ok hrun, ← hpreserves.eq_of_runIn hrun]
  exact hnext a after

theorem Prints.ite {condition : Prop} [Decidable condition] (h : Prints lines session)
    (hother : Prints lines other) : Prints lines (if condition then session else other) := by
  split
  · exact h
  · exact hother

/-- **Items are shown** one to a line. -/
theorem prints_forM (line : α → String) (items : List α) :
    Prints (items.map line)
      ((items.forM fun item ↦ Console.output (line item)) >>= fun _ ↦ pure .success) := by
  have hforM : ∀ w, ∃ after,
      runIn (items.forM fun item ↦ Console.output (line item)) w = (.ok (), after) ∧
        after.output = w.output ++ Console.text (items.map line) := by
    induction items with
    | nil => exact fun w ↦ ⟨w, rfl, (String.append_empty).symm⟩
    | cons item items ih =>
      intro w
      obtain ⟨after, hrun, houtput⟩ :=
        ih { w with effects.output := w.effects.output ++ (line item ++ "\n") }
      refine ⟨after, (runIn_bind_of_ok rfl _).trans hrun, houtput.trans ?_⟩
      simp only [World.output, Console.text, List.map_cons, String.join_cons, String.append_assoc]
  intro w
  obtain ⟨after, hrun, houtput⟩ := hforM w
  rw [runIn_bind_of_ok hrun]
  exact ⟨rfl, houtput⟩

/-! ### Showing something last -/

/-- A session that ends with success or has written nothing. -/
def PrintsLast (session : Session ExitCode) : Prop :=
  ∀ w, (runIn session w).1 = .ok .success ∨ (runIn session w).2.output = w.output

theorem Prints.printsLast (h : Prints lines session) : PrintsLast session := fun w ↦ .inl (h w).1

theorem Gives.printsLast (h : Gives ExitCode.success session) : PrintsLast session :=
  fun w ↦ .inl (h w)

theorem Preserves.printsLast (h : Preserves World.output session) : PrintsLast session :=
  fun w ↦ .inr (h w)

/-- What is done first writes nothing, and may fail. -/
theorem Preserves.bind_printsLast {session : Session α} {next : α → Session ExitCode}
    (h : Preserves World.output session) (hnext : ∀ a, PrintsLast (next a)) :
    PrintsLast (session >>= next) := by
  intro w
  rcases hrun : runIn session w with ⟨outcome, after⟩
  have hafter := h.eq_of_runIn hrun
  cases outcome with
  | ok a =>
    rw [runIn_bind_of_ok hrun, ← hafter]
    exact hnext a after
  | error failure =>
    rw [runIn_bind_of_error hrun]
    exact .inr hafter

/-- A child process does not write to the output itself. -/
theorem preserves_execute (run : ChildRun) : Preserves World.output (execute run) := by
  refine preserves_get_bind fun w ↦ ?_
  cases w.replies with
  | nil => rfl
  | cons reply replies => cases reply <;> rfl

end Session

open Session

theorem TraceCommand.preserves_run (command : TraceCommand) (args : List String) (dir : String) :
    Preserves World.output (command.run args dir) := by
  refine (Journal.preserves_write _).output.bind fun _ ↦
    Preserves.tryCatch ((preserves_execute _).bind fun _ ↦ preserves_pure _) fun failure ↦
      .ite ?_ (preserves_throw failure)
  exact (Console.preserves_log _ _).output.bind fun _ ↦
    (Journal.preserves_write _).output.bind fun _ ↦ preserves_pure _

namespace Program

variable {w started after loaded : World} {invocation : Invocation}
  {options : CommandLine.Options} {action : CommandLine.Action} {context : Context}
  {config : Config} {located : Located} {lines : List String}

/-! ### What the commands show -/

/-- The root is shown, with a warning before it or without. -/
theorem showRoot_eq (context : Context) : ∃ shown : Located → Session ExitCode,
    showRoot context = context.locate >>= shown ∧
      ∀ located, Prints located.root.dirs (shown located) := by
  refine ⟨_, rfl, fun located ↦ ?_⟩
  have hlines := prints_forM id located.root.dirs
  rw [List.map_id] at hlines
  exact .of_bind (Console.succeeds_log _ _) (Console.preserves_log _ _).output fun _ ↦
    .ite (.of_bind (Console.succeeds_log _ _) (Console.preserves_log _ _).output fun _ ↦ hlines)
      hlines

/-- A directory of the search path with the name of its layer. -/
def layerLine (labelled : Layer × String) : String := labelled.1.name ++ "\t" ++ labelled.2

/-- The lines of a search path. -/
def pathLines (withLayers : Bool) (located : Located) : List String :=
  if withLayers then located.layers.labelled.map layerLine else located.searchPath

theorem showPath_eq (context : Context) (withLayers : Bool) :
    ∃ shown : Located → Session ExitCode, showPath context withLayers = context.locate >>= shown ∧
      ∀ located, Prints (pathLines withLayers located) (shown located) := by
  refine ⟨_, rfl, fun located ↦ ?_⟩
  cases withLayers with
  | true => exact prints_forM layerLine located.layers.labelled
  | false =>
    have hlines := prints_forM id located.searchPath
    rw [List.map_id] at hlines
    exact hlines

theorem findResource_eq (context : Context) (name : String) :
    ∃ shown : Located → Option Resource → Session ExitCode,
      findResource context name = (context.locate >>= fun located ↦ get >>= fun w ↦
        Resource.find w.cwd Session.probe.isFile name located.searchPath >>= shown located) ∧
      (∀ located, Preserves World.output (shown located none)) ∧
      (∀ located, Gives .notFound (shown located none)) ∧
      ∀ located resource, Prints [resource.path] (shown located (some resource)) := by
  refine ⟨_, rfl, fun located ↦ ?_, fun located ↦ ?_, fun located resource ↦ ?_⟩
  · exact (Console.preserves_log _ _).output.bind fun _ ↦ preserves_pure _
  · exact (Console.succeeds_log _ _).gives fun _ ↦ gives_pure _
  · exact prints_forM Resource.path [resource]

/-- The resources are shown, or the absence of any is told beside them. -/
theorem listResources_eq (context : Context) (extension : Option String) :
    ∃ shown : List Resource → Session ExitCode,
      listResources context extension = (context.locate >>= fun located ↦
        Resource.list Session.probe.entries Session.probe.isFile extension located.searchPath >>=
          shown) ∧
      ∀ resources, Prints (resources.map Resource.path) (shown resources) := by
  refine ⟨_, rfl, fun resources ↦ ?_⟩
  have hlines := prints_forM Resource.path resources
  exact .ite (.of_bind (Console.succeeds_log _ _) (Console.preserves_log _ _).output fun _ ↦
    hlines) hlines

/-! ### Nothing is shown by a command that fails -/

theorem printsLast_trace (context : Context) (args : List String) :
    PrintsLast (trace context args) := by
  rw [trace]
  cases context.config.traceTool with
  | none => exact ((Console.preserves_log _ _).output.bind fun _ ↦ preserves_pure _).printsLast
  | some tool =>
    exact (Console.preserves_log _ _).output.bind_printsLast fun _ ↦
      (TraceCommand.preserves_run _ _ _).bind_printsLast fun _ ↦
        (Succeeds.gives (failsOnly_modify _) fun _ ↦ gives_pure _).printsLast

theorem printsLast_showVariables (context : Context) : PrintsLast (showVariables context) := by
  refine (Succeeds.gives (failsOnly_forM fun name ↦ ?_) fun _ ↦ gives_pure _).printsLast
  cases context.env.nonempty? name with
  | none => exact Console.succeeds_status _ _ _
  | some value => exact Console.succeeds_status _ _ _

/-- **Every command prints last.** -/
theorem printsLast_perform (context : Context) (action : CommandLine.Action) :
    PrintsLast (perform context action) := by
  have hlocate := context.preserves_locate.output
  cases action with
  | root =>
    obtain ⟨shown, heq, hshown⟩ := showRoot_eq context
    rw [perform, heq]
    exact hlocate.bind_printsLast fun located ↦ (hshown located).printsLast
  | path withLayers =>
    obtain ⟨shown, heq, hshown⟩ := showPath_eq context withLayers
    rw [perform, heq]
    exact hlocate.bind_printsLast fun located ↦ (hshown located).printsLast
  | find name =>
    obtain ⟨shown, heq, hsilent, -, hshown⟩ := findResource_eq context name
    have hfind : ∀ cwd searchPath,
        IsQuestion (Resource.find cwd Session.probe.isFile name searchPath) :=
      fun cwd searchPath w ↦ by rw [Resource.runIn_find]
    rw [perform, heq]
    refine hlocate.bind_printsLast fun located ↦ preserves_get.bind_printsLast fun w ↦
      (hfind _ _).preserves.bind_printsLast fun found ↦ ?_
    cases found with
    | none => exact (hsilent located).printsLast
    | some resource => exact (hshown located resource).printsLast
  | list extension =>
    obtain ⟨shown, heq, hshown⟩ := listResources_eq context extension
    have hlist : ∀ searchPath, IsQuestion
        (Resource.list Session.probe.entries Session.probe.isFile extension searchPath) :=
      fun searchPath w ↦ by rw [Resource.runIn_list]
    rw [perform, heq]
    exact hlocate.bind_printsLast fun located ↦ (hlist _).preserves.bind_printsLast fun resources ↦
      (hshown resources).printsLast
  | env => exact printsLast_showVariables context
  | trace args => exact printsLast_trace context args

/-- The output of a run is that of the command, whether it ends well or fails. -/
theorem output_runAction_of_ok {invocation : Invocation} {options : CommandLine.Options}
    {context : Context} {w started : World}
    (h : (prepare invocation options).runIn w = (.ok context, started))
    (action : CommandLine.Action) : ((runAction invocation options action).runIn w).2.output =
      ((perform context action).runIn started).2.output :=
  World.output_eq_of_reported_eq (reported_runAction_of_ok h action)

/-- **A run without success has no output.** -/
theorem output_runAction (invocation : Invocation) (options : CommandLine.Options)
    (action : CommandLine.Action) (w : World) :
    ((runAction invocation options action).runIn w).1 = .ok 0 ∨
      ((runAction invocation options action).runIn w).2.output = w.output := by
  rcases hprepare : (prepare invocation options).runIn w with ⟨outcome, started⟩
  have hstarted := (preserves_prepare invocation options).output.eq_of_runIn hprepare
  cases outcome with
  | error failure =>
    have hfailed := reported_runAction_of_error hprepare action
    exact .inr ((World.output_eq_of_reported_eq hfailed).trans hstarted)
  | ok context =>
    rcases printsLast_perform context action started with hsuccess | hsilent
    · refine .inl ?_
      rw [outcome_runAction_of_ok hprepare, hsuccess]
      rfl
    · exact .inr ((output_runAction_of_ok hprepare action).trans (hsilent.trans hstarted))

/-! ### The answer of the library -/

/-- What the library answers to a command in a world, which stays as it is. -/
inductive Context.Answers (context : Context) (w : World) :
    CommandLine.Action → List String → Prop where
  /-- The directories of the root. -/
  | root {located : Located} (hlocate : context.locate.runIn w = (.ok located, w)) :
      Answers context w .root located.root.dirs
  /-- The search path. -/
  | path {located : Located} (hlocate : context.locate.runIn w = (.ok located, w)) :
      Answers context w (.path false) located.searchPath
  /-- The path of the resource that is found. -/
  | find {located : Located} {name : String} {resource : Resource}
      (hlocate : context.locate.runIn w = (.ok located, w))
      (hfind : (Resource.find w.cwd Session.probe.isFile name located.searchPath).runIn w =
        (.ok (some resource), w)) : Answers context w (.find name) [resource.path]
  /-- The paths of the resources that are listed. -/
  | list {located : Located} {extension : Option String} {resources : List Resource}
      (hlocate : context.locate.runIn w = (.ok located, w))
      (hlist : (Resource.list Session.probe.entries Session.probe.isFile extension
        located.searchPath).runIn w = (.ok resources, w)) :
      Answers context w (.list extension) (resources.map Resource.path)

/-- Whether a command shows nothing but paths, each on a line of its own. -/
def showsPaths : CommandLine.Action → Bool
  | .root | .path false | .find _ | .list _ => true
  | _ => false

/-- Whether a command searches the resources. -/
def searchesResources : CommandLine.Action → Bool
  | .env | .trace _ => false
  | _ => true

namespace Context

/-- **The answer is that of the disk**: it is the same in all worlds with this disk and this working
directory in which no entries are made. -/
theorem Answers.of_alike {other : World} (h : context.Answers w action lines) (hw : w.IsQuiet)
    (hother : other.IsQuiet) (hdisk : other.disk = w.disk) (hcwd : other.cwd = w.cwd) :
    context.Answers other action lines := by
  have hlocate : ∀ {located}, context.locate.runIn w = (.ok located, w) →
      context.locate.runIn other = (.ok located, other) := by
    intro located h
    rw [runIn_locate_of_isQuiet context hw, Prod.mk.injEq] at h
    rw [runIn_locate_of_isQuiet context hother, hdisk, hcwd, h.1]
  cases h with
  | root h => exact .root (hlocate h)
  | path h => exact .path (hlocate h)
  | find h hfind =>
    refine .find (hlocate h) ?_
    rw [Resource.runIn_find, Prod.mk.injEq] at hfind
    rw [Resource.runIn_find, hdisk, hcwd, hfind.1]
  | list h hlist =>
    refine .list (hlocate h) ?_
    rw [Resource.runIn_list, Prod.mk.injEq] at hlist
    rw [Resource.runIn_list, hdisk, hcwd, hlist.1]

/-- A command that has ended well has located the resources. -/
theorem exists_runIn_locate (hfaults : context.HasStartupFaults)
    {shown : Located → Session ExitCode}
    (h : exitOf ((context.locate >>= shown).runIn w).1 = .ok 0) :
    ∃ located after, context.locate.runIn w = (.ok located, after) := by
  rcases locate_cases hfaults w with ⟨-, fault, after, hlocate⟩ |
    ⟨-, ⟨-, failure, after, hgeneral, hlocate⟩ | ⟨-, located, after, hlocate⟩⟩
  · have hstatus : statusOf (.startup fault) = .ok 2 := rfl
    rw [exitOf_bind_of_error hlocate, hstatus] at h
    cases h
  · rw [exitOf_bind_of_error hlocate, statusOf_of_isGeneral hgeneral] at h
    cases h
  · exact ⟨located, after, hlocate⟩

/-- If no entries are made, that leaves the world as it is. -/
theorem exists_runIn_locate_of_isQuiet (hfaults : context.HasStartupFaults) (hquiet : w.IsQuiet)
    {shown : Located → Session ExitCode}
    (h : exitOf ((context.locate >>= shown).runIn w).1 = .ok 0) :
    ∃ located, context.locate.runIn w = (.ok located, w) := by
  obtain ⟨located, after, hlocate⟩ := exists_runIn_locate hfaults h
  have hstill := runIn_locate_of_isQuiet context hquiet
  rw [hlocate, Prod.mk.injEq] at hstill
  obtain rfl : after = w := hstill.2
  exact ⟨located, hlocate⟩

/-- **A command that ends well shows the answer of the library**, if no entries are made. -/
theorem exists_answers (hfaults : context.HasStartupFaults) (hquiet : w.IsQuiet)
    (hshows : showsPaths action = true)
    (hexit : exitOf ((perform context action).runIn w).1 = .ok 0) :
    ∃ lines, context.Answers w action lines ∧
      ((perform context action).runIn w).1 = .ok .success ∧
      ((perform context action).runIn w).2.output = w.output ++ Console.text lines := by
  cases action with
  | root =>
    obtain ⟨shown, heq, hshown⟩ := showRoot_eq context
    rw [perform, heq] at hexit ⊢
    obtain ⟨located, hlocate⟩ := exists_runIn_locate_of_isQuiet hfaults hquiet hexit
    rw [runIn_bind_of_ok hlocate]
    exact ⟨_, .root hlocate, hshown located w⟩
  | path withLayers =>
    cases withLayers with
    | true => cases hshows
    | false =>
      obtain ⟨shown, heq, hshown⟩ := showPath_eq context false
      rw [perform, heq] at hexit ⊢
      obtain ⟨located, hlocate⟩ := exists_runIn_locate_of_isQuiet hfaults hquiet hexit
      rw [runIn_bind_of_ok hlocate]
      exact ⟨_, .path hlocate, hshown located w⟩
  | find name =>
    obtain ⟨shown, heq, -, hnone, hshown⟩ := findResource_eq context name
    rw [perform, heq] at hexit ⊢
    obtain ⟨located, hlocate⟩ := exists_runIn_locate_of_isQuiet hfaults hquiet hexit
    rw [runIn_bind_of_ok hlocate, runIn_bind_of_ok (runIn_get w)] at hexit ⊢
    rcases hfind : (Resource.find w.cwd Session.probe.isFile name located.searchPath).runIn w with
      ⟨outcome, after⟩
    obtain rfl : after = w := by
      rw [Resource.runIn_find] at hfind
      exact (congrArg Prod.snd hfind).symm
    cases outcome with
    | error failure =>
      rw [exitOf_bind_of_error hfind,
        statusOf_of_isGeneral (Resource.failsOnly_find _ _ _ _ _ _ hfind)] at hexit
      cases hexit
    | ok found =>
      rw [runIn_bind_of_ok hfind] at hexit ⊢
      cases found with
      | none =>
        rw [exitOf_of_gives .notFound (hnone located)] at hexit
        cases hexit
      | some resource => exact ⟨_, .find hlocate hfind, hshown located resource after⟩
  | list extension =>
    obtain ⟨shown, heq, hshown⟩ := listResources_eq context extension
    rw [perform, heq] at hexit ⊢
    obtain ⟨located, hlocate⟩ := exists_runIn_locate_of_isQuiet hfaults hquiet hexit
    rw [runIn_bind_of_ok hlocate] at hexit ⊢
    rcases hlist : (Resource.list Session.probe.entries Session.probe.isFile extension
      located.searchPath).runIn w with ⟨outcome, after⟩
    obtain rfl : after = w := by
      rw [Resource.runIn_list] at hlist
      exact (congrArg Prod.snd hlist).symm
    cases outcome with
    | error failure =>
      rw [exitOf_bind_of_error hlist,
        statusOf_of_isGeneral (Resource.failsOnly_list _ _ _ _ _ hlist)] at hexit
      cases hexit
    | ok resources =>
      rw [runIn_bind_of_ok hlist]
      exact ⟨_, .list hlocate hlist, hshown resources after⟩
  | env => cases hshows
  | trace => cases hshows

end Context

/-! ### The search path with its layers -/

/-- **Layers never go back** in a search path. -/
theorem pairwise_labelled (layers : Layers) : layers.labelled.Pairwise fun a b ↦
    Layer.all.idxOf a.1 ≤ Layer.all.idxOf b.1 := by
  have hlayer : ∀ layer, ∀ a ∈ (layers.dirs layer).map (layer, ·), a.1 = layer := by
    intro layer a ha
    obtain ⟨dir, -, rfl⟩ := List.mem_map.1 ha
    rfl
  refine List.pairwise_flatMap.2 ⟨fun layer _ ↦ ?_, ?_⟩
  · exact List.pairwise_map.2 (List.pairwise_of_forall fun _ _ ↦ Nat.le_refl _)
  · have hall : Layer.all.Pairwise fun a b ↦ Layer.all.idxOf a ≤ Layer.all.idxOf b := by decide
    refine hall.imp fun hle a ha b hb ↦ ?_
    rwa [hlayer _ a ha, hlayer _ b hb]

/-- The path of the executable is all that a command goes by among the arguments of the process. -/
theorem prepare_congr_executable {other : Invocation} (henv : other.env = invocation.env)
    (hdirectory : other.directory = invocation.directory) {options : CommandLine.Options}
    (hexecutable : ∀ cwd dir, executableOf cwd dir other.arguments options.executable =
      executableOf cwd dir invocation.arguments options.executable) :
    prepare other options = prepare invocation options := by
  simp only [prepare, hexecutable, henv, hdirectory]

/-- The entry script is all that it goes by. -/
theorem prepare_congr {other : Invocation} (henv : other.env = invocation.env)
    (hdirectory : other.directory = invocation.directory)
    (hentry : other.arguments[1]? = invocation.arguments[1]?) (options : CommandLine.Options) :
    prepare other options = prepare invocation options :=
  prepare_congr_executable henv hdirectory fun _ _ ↦ by
    simp only [executableOf, Executable.ofArguments, hentry]

/-- Showing the search path comes to the same with its layers and without. -/
theorem outcome_runAction_path (invocation : Invocation) (options : CommandLine.Options)
    (withLayers : Bool) (w : World) :
    ((runAction invocation options (.path withLayers)).runIn w).1 =
      ((runAction invocation options (.path false)).runIn w).1 := by
  rcases hprepare : (prepare invocation options).runIn w with ⟨outcome, started⟩
  cases outcome with
  | error failure =>
    rw [outcome_runAction_of_error hprepare, outcome_runAction_of_error hprepare]
  | ok context =>
    obtain ⟨shown, heq, hshown⟩ := showPath_eq context withLayers
    obtain ⟨shown', heq', hshown'⟩ := showPath_eq context false
    rw [outcome_runAction_of_ok hprepare, outcome_runAction_of_ok hprepare, perform, perform, heq,
      heq']
    rcases hlocate : context.locate.runIn started with ⟨outcome, after⟩
    cases outcome with
    | error failure => rw [exitOf_bind_of_error hlocate, exitOf_bind_of_error hlocate]
    | ok located =>
      rw [exitOf_bind_of_ok hlocate, exitOf_bind_of_ok hlocate, (hshown located after).1,
        (hshown' located after).1]

/-- **A search path that has been located is shown**, and the run ends well. -/
theorem outcome_runAction_path_of_ok {located : Located}
    (hprepare : (prepare invocation options).runIn w = (.ok context, started))
    (hlocate : context.locate.runIn started = (.ok located, after)) (withLayers : Bool) :
    ((runAction invocation options (.path withLayers)).runIn w).1 = .ok 0 := by
  obtain ⟨shown, heq, hshown⟩ := showPath_eq context withLayers
  rw [outcome_runAction_of_ok hprepare, perform, heq, exitOf_bind_of_ok hlocate,
    (hshown located after).1]
  rfl

theorem output_runAction_path {located : Located}
    (hprepare : (prepare invocation options).runIn w = (.ok context, started))
    (hlocate : context.locate.runIn started = (.ok located, after)) (withLayers : Bool) :
    ((runAction invocation options (.path withLayers)).runIn w).2.output =
      w.output ++ Console.text (pathLines withLayers located) := by
  have hstarted := (preserves_prepare invocation options).output.eq_of_runIn hprepare
  have hafter := context.preserves_locate.output.eq_of_runIn hlocate
  obtain ⟨shown, heq, hshown⟩ := showPath_eq context withLayers
  rw [output_runAction_of_ok hprepare, perform, heq, runIn_bind_of_ok hlocate,
    (hshown located after).2, hafter, hstarted]

/-! ### The output of a run -/

/-- A run that ends well has prepared a context and performed its command. -/
theorem exists_prepared_of_run
    (hrequest : CommandLine.readRequest invocation.userArguments = .run options action)
    (h : ((run invocation).runIn w).1 = .ok 0) :
    ∃ config loaded started,
      (Config.load (Path.resolve w.cwd [invocation.directory]) invocation.env).runIn w =
        (.ok config, loaded) ∧
      (prepare invocation options).runIn w =
        (.ok (invocation.contextWith options w.cwd config), started) ∧
      exitOf ((perform (invocation.contextWith options w.cwd config) action).runIn started).1 =
        .ok 0 := by
  rw [outcome_run_of_request hrequest] at h
  rcases hload : (Config.load (Path.resolve w.cwd [invocation.directory]) invocation.env).runIn w
    with ⟨outcome, loaded⟩
  cases outcome with
  | error failure =>
    rw [outcome_runAction_of_error (runIn_prepare_of_load_error hload)] at h
    rcases statusOf_of_runIn_load hload with ⟨-, hstatus⟩ | ⟨-, hstatus⟩
    all_goals rw [hstatus] at h; cases h
  | ok config =>
    rcases hopening : (opening invocation options w.cwd config).runIn loaded with
      ⟨outcome, opened⟩
    cases outcome with
    | error failure =>
      rw [outcome_runAction_of_error (runIn_prepare_of_opening_error hload hopening),
        statusOf_of_isGeneral (Journal.failsOnly_configure _ _ loaded failure opened hopening)] at h
      cases h
    | ok =>
      obtain ⟨started, hprepare⟩ := exists_runIn_prepare hload hopening
      rw [outcome_runAction_of_ok hprepare] at h
      exact ⟨config, loaded, started, rfl, hprepare, h⟩

/-- **A run without success has no output**, be it asked for a command or not. -/
theorem output_run_of_not_success (h : ((run invocation).runIn w).1 ≠ .ok 0) :
    ((run invocation).runIn w).2.output = w.output := by
  cases hrequest : CommandLine.readRequest invocation.userArguments with
  | answer text =>
    refine absurd ?_ h
    simp only [run, hrequest]
    rfl
  | refuse complaint =>
    simp only [run, hrequest]
    rfl
  | run options action =>
    rw [run_of_request hrequest] at h ⊢
    exact (output_runAction invocation options action w).resolve_left h

/-- **A run that ends well shows the answer of the library**, if no entries are made. -/
theorem exists_answers_of_run
    (hrequest : CommandLine.readRequest invocation.userArguments = .run options action)
    (hshows : showsPaths action = true) (hjournal : w.journal = {})
    (hexit : ((run invocation).runIn w).1 = .ok 0) :
    ∃ config loaded,
      (Config.load (Path.resolve w.cwd [invocation.directory]) invocation.env).runIn w =
        (.ok config, loaded) ∧
      (options.isVerbose = false → config.verbose = false →
        config.debug.any (·.enabled) = false →
        ∃ lines, (invocation.contextWith options w.cwd config).Answers w action lines ∧
          ((run invocation).runIn w).2.output = w.output ++ Console.text lines) := by
  obtain ⟨config, loaded, started, hload, hprepare, hperform⟩ :=
    exists_prepared_of_run hrequest hexit
  refine ⟨config, loaded, hload, fun hoptions hverbose hdebug ↦ ?_⟩
  have hstill := runIn_prepare_still hjournal hload hoptions hverbose hdebug
  rw [hprepare, Prod.mk.injEq] at hstill
  obtain rfl : started = stillStarted config w := hstill.2
  obtain ⟨lines, hanswers, -, houtput⟩ :=
    Context.exists_answers (hasStartupFaults_contextWith _ _ _ _)
      (isQuiet_stillStarted config w) hshows hperform
  -- The command starts in a world that differs from the first one in how it logs, and no more.
  refine ⟨lines, hanswers.of_alike (isQuiet_stillStarted config w)
    (isQuiet_of_journal hjournal) rfl rfl, ?_⟩
  rw [run_of_request hrequest, output_runAction_of_ok hprepare, houtput]
  rfl

/-- **A run that is asked for the search path and ends well** has located it. -/
theorem exists_located_of_run
    (hrequest : CommandLine.readRequest invocation.userArguments = .run options (.path false))
    (hexit : ((run invocation).runIn w).1 = .ok 0) :
    ∃ context started located after,
      (prepare invocation options).runIn w = (.ok context, started) ∧
      context.locate.runIn started = (.ok located, after) := by
  obtain ⟨config, loaded, started, -, hprepare, hperform⟩ := exists_prepared_of_run hrequest hexit
  obtain ⟨shown, heq, -⟩ := showPath_eq (invocation.contextWith options w.cwd config) false
  rw [perform, heq] at hperform
  obtain ⟨located, after, hlocate⟩ :=
    Context.exists_runIn_locate (hasStartupFaults_contextWith _ _ _ _) hperform
  exact ⟨_, started, located, after, hprepare, hlocate⟩

/-- **The output of a run.** Without success there is none. A command that shows paths and ends well
while no entries are made in the debug log has shown the answer of the library, and nothing else.
The search path with its layers is shown if and only if it is without them, and has the same
directories, each after the name of its layer. -/
theorem output_run (invocation : Invocation) (w : World) :
    let outcome := ((run invocation).runIn w).1
    let output := ((run invocation).runIn w).2.output
    (outcome ≠ .ok 0 → output = w.output) ∧
    (∀ options action,
      CommandLine.readRequest invocation.userArguments = .run options action →
      showsPaths action = true → w.journal = {} → outcome = .ok 0 →
      ∃ config loaded,
        (Config.load (Path.resolve w.cwd [invocation.directory]) invocation.env).runIn w =
          (.ok config, loaded) ∧
        (options.isVerbose = false → config.verbose = false →
          config.debug.any (·.enabled) = false →
          ∃ lines, (invocation.contextWith options w.cwd config).Answers w action lines ∧
            output = w.output ++ Console.text lines)) ∧
    ∀ options other, other.env = invocation.env → other.directory = invocation.directory →
      other.arguments[1]? = invocation.arguments[1]? →
      CommandLine.readRequest invocation.userArguments = .run options (.path false) →
      CommandLine.readRequest other.userArguments = .run options (.path true) →
      ((run other).runIn w).1 = outcome ∧
      (outcome = .ok 0 → ∃ context started located after,
        (prepare invocation options).runIn w = (.ok context, started) ∧
        context.locate.runIn started = (.ok located, after) ∧
        output = w.output ++ Console.text (located.layers.labelled.map (·.2)) ∧
        ((run other).runIn w).2.output =
          w.output ++ Console.text (located.layers.labelled.map layerLine) ∧
        located.layers.labelled.Pairwise fun a b ↦
          Layer.all.idxOf a.1 ≤ Layer.all.idxOf b.1) := by
  intro outcome output
  refine ⟨output_run_of_not_success,
    fun options action hrequest hshows hjournal hexit ↦
      exists_answers_of_run hrequest hshows hjournal hexit,
    fun options other henv hdirectory hentry hrequest hother ↦ ?_⟩
  have hruns : run invocation = runAction invocation options (.path false) :=
    run_of_request hrequest
  have hruns' : run other = runAction invocation options (.path true) := by
    rw [run_of_request hother, runAction, runAction, prepare_congr henv hdirectory hentry]
  rw [hruns']
  refine ⟨?_, fun hexit ↦ ?_⟩
  · rw [outcome_runAction_path, ← hruns]
  · obtain ⟨context, started, located, after, hprepare, hlocate⟩ :=
      exists_located_of_run hrequest hexit
    refine ⟨context, started, located, after, hprepare, hlocate, ?_,
      output_runAction_path hprepare hlocate true, pairwise_labelled located.layers⟩
    show ((run invocation).runIn w).2.output = _
    rw [hruns, output_runAction_path hprepare hlocate false, Layers.labelled_map_snd]
    rfl

section Small

/-- A run that is asked for the search path, and more. -/
def showingPath (more : List String) : Invocation :=
  ⟨["node", "/r", "path"] ++ more, libdirVariables, "/p"⟩

theorem readRequest_showingPath : CommandLine.readRequest (showingPath []).userArguments =
    .run ⟨false, [], none⟩ (.path false) := by
  have hwords : CommandLine.readRequest ["path"] = .run ⟨false, [], none⟩ (.path false) := by cbv
  exact hwords

theorem readRequest_showingLayers :
    CommandLine.readRequest (showingPath ["--layers"]).userArguments =
      .run ⟨false, [], none⟩ (.path true) := by
  have hwords : CommandLine.readRequest ["path", "--layers"] =
      .run ⟨false, [], none⟩ (.path true) := by cbv
  exact hwords

theorem runIn_prepare_libdirVariables :
    (prepare (showingPath []) ⟨false, [], none⟩).runIn emptyWorld =
      (.ok ((showingPath []).contextWith ⟨false, [], none⟩ "/" Config.ofTwoVariables),
        stillStarted Config.ofTwoVariables emptyWorld) := by
  obtain ⟨_, -, hprepare⟩ := runIn_prepare_asking ofDisk_libdirVariables ["path"] none
  exact hprepare

theorem outcome_run_showingPath : ((run (showingPath [])).runIn emptyWorld).1 = .ok 0 := by
  have hlocate := runIn_locate_asking
    (isQuiet_stillStarted Config.ofTwoVariables emptyWorld) rfl rfl ["path"] none
  rw [run_of_request readRequest_showingPath]
  exact outcome_runAction_path_of_ok runIn_prepare_libdirVariables hlocate false

end Small

/-- The search path that one variable makes is shown with its layer and without. -/
theorem output_run_of_libdir :
    CommandLine.readRequest (showingPath []).userArguments =
      .run ⟨false, [], none⟩ (.path false) ∧
    CommandLine.readRequest (showingPath ["--layers"]).userArguments =
      .run ⟨false, [], none⟩ (.path true) ∧
    ((run (showingPath [])).runIn emptyWorld).1 = .ok 0 ∧
    ((run (showingPath [])).runIn emptyWorld).2.output = "/lib\n" ∧
    ((run (showingPath ["--layers"])).runIn emptyWorld).2.output = "bundled\t/lib\n" := by
  have hrequest := readRequest_showingPath
  have hexit := outcome_run_showingPath
  obtain ⟨loaded, hload⟩ := runIn_load_of_ok (w := emptyWorld) ofDisk_libdirVariables
  obtain ⟨-, hanswer, hlayered⟩ := output_run (showingPath []) emptyWorld
  refine ⟨hrequest, readRequest_showingLayers, hexit, ?_, ?_⟩
  · obtain ⟨config, loaded', hload', hlines⟩ := hanswer _ _ hrequest rfl rfl hexit
    obtain rfl : Config.ofTwoVariables = config :=
      Except.ok.inj (congrArg Prod.fst (hload.symm.trans hload'))
    obtain ⟨lines, hanswers, houtput⟩ := hlines rfl rfl rfl
    cases hanswers with
    | path hasked =>
      have hfound := hasked.symm.trans
        (runIn_locate_asking (isQuiet_of_journal rfl) rfl rfl ["path"] none)
      obtain rfl := Except.ok.inj (congrArg Prod.fst hfound)
      exact houtput
  · obtain ⟨-, hshown⟩ := hlayered _ (showingPath ["--layers"]) rfl rfl rfl hrequest
      readRequest_showingLayers
    obtain ⟨context, started, located, after, hprepare, hasked, -, houtput, -⟩ := hshown hexit
    have hsame := runIn_prepare_libdirVariables.symm.trans hprepare
    rw [Prod.mk.injEq] at hsame
    obtain rfl := Except.ok.inj hsame.1
    obtain rfl := hsame.2
    have hlocate := runIn_locate_asking
      (isQuiet_stillStarted Config.ofTwoVariables emptyWorld) rfl rfl ["path"] none
    obtain rfl := Except.ok.inj (congrArg Prod.fst (hasked.symm.trans hlocate))
    exact houtput

end Program

end ResourceLocator
