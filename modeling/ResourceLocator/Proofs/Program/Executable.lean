import ResourceLocator.Proofs.CommandLine.Settings
import ResourceLocator.Proofs.Program.Output

/-!
# The path that is given for the executable

A path that is given for the executable is taken as it is, and the entry script of the process is
not looked at (`run_given_executable`): a path that is not absolute is a fault as soon as the
executable is needed. The empty path is the exception: it counts as none.
-/

namespace ResourceLocator.Program

open Session

variable {w opened : World} {config : Config} {options : CommandLine.Options}
  {action : CommandLine.Action} {path : String}

/-- A path that is not empty is taken whatever the arguments of the process are. -/
theorem executableOf_of_ne (hne : path ≠ "") (cwd dir : String) (arguments : List String) :
    executableOf cwd dir arguments (some path) = Executable.ofPath path := by
  unfold executableOf
  split
  · next h => cases h
  · next h => exact absurd (Option.some.inj h) hne
  · next h => rw [Option.some.inj h]

/-- **Without an absolute path of the executable** nothing that needs one is located. -/
theorem exitStatus_of_relative {context : Context}
    (hexecutable : context.executable = Executable.ofPath path)
    (hrelative : Path.isAbsolute path = false)
    (hlibdir : context.env.nonempty? context.config.tool.libdirVariable = none)
    (huninstalled : context.env.nonempty? context.config.tool.uninstalledVariable = none)
    (hsearches : searchesResources action = true) (w : World) :
    context.exitStatus w action = .ok 2 := by
  have hlacks : ∀ w, context.lacksExecutable w = true := fun w ↦ by
    rw [Context.lacksExecutable, hexecutable, Executable.ofPath, hrelative]
    rfl
  have hcannot : context.cannotStart (context.searching w) = true := by
    rw [Context.cannotStart, hlibdir, huninstalled, hlacks]
    rfl
  have hstatus : context.locatingStatus w action = 2 := if_pos hcannot
  cases action with
  | env => cases hsearches
  | trace args => cases hsearches
  | root => exact congrArg Except.ok hstatus
  | path withLayers => exact congrArg Except.ok hstatus
  | find name => exact congrArg Except.ok hstatus
  | list extension => exact congrArg Except.ok hstatus

/-- **A path that is given for the executable is never replaced** by the entry script, unless it is
empty: a run is the same for all entry scripts. Where no variable says where the resources are, it
fails with the status of a startup fault if the path is not absolute. -/
theorem run_given_executable {args : List String} {settings : List CommandLine.Setting}
    (hsets : CommandLine.Sets args settings)
    (hgiven : (CommandLine.valuesOf .executable settings).getLast? = some path) (hne : path ≠ "")
    (node entry other : String) (env : Environment) (directory : String) (w : World) :
    let invocation : Invocation := ⟨node :: entry :: args, env, directory⟩
    (run invocation).runIn w = (run ⟨node :: other :: args, env, directory⟩).runIn w ∧
    ∀ options action config loaded opened,
      CommandLine.readRequest args = .run options action → searchesResources action = true →
      (Config.load (Path.resolve w.cwd [directory]) env).runIn w = (.ok config, loaded) →
      (opening invocation options w.cwd config).runIn loaded = (.ok (), opened) →
      env.nonempty? config.tool.libdirVariable = none →
      env.nonempty? config.tool.uninstalledVariable = none →
      Path.isAbsolute path = false → ((run invocation).runIn w).1 = .ok 2 := by
  intro invocation
  have hexecutable : ∀ {options action}, CommandLine.readRequest args = .run options action →
      ∀ cwd dir arguments,
        executableOf cwd dir arguments options.executable = Executable.ofPath path := by
    intro options action hrequest cwd dir arguments
    have hoption : options.executable = some path := by
      rw [hsets.options_eq hrequest]
      exact hgiven
    rw [hoption, executableOf_of_ne hne]
  constructor
  · refine congrArg (fun session : Session Int ↦ session.runIn w) ?_
    have huser : ∀ entry, Invocation.userArguments ⟨node :: entry :: args, env, directory⟩ = args :=
      fun _ ↦ rfl
    simp only [run, huser, invocation]
    split
    · rfl
    · rfl
    · next options action hrequest =>
      have hprepare : prepare ⟨node :: other :: args, env, directory⟩ options =
          prepare ⟨node :: entry :: args, env, directory⟩ options :=
        @prepare_congr_executable ⟨node :: entry :: args, env, directory⟩
          ⟨node :: other :: args, env, directory⟩ rfl rfl options fun cwd dir ↦
            (hexecutable hrequest cwd dir _).trans (hexecutable hrequest cwd dir _).symm
      simp only [runAction, hprepare]
  · intro options action config loaded opened hrequest hsearches hload hopening hlibdir
      huninstalled hrelative
    have hasked : CommandLine.readRequest invocation.userArguments = .run options action := hrequest
    obtain ⟨started, -, houtcome⟩ := exists_outcome_run hasked hload hopening
    exact houtcome.trans (exitStatus_of_relative (hexecutable hrequest _ _ _) hrelative hlibdir
      huninstalled hsearches started)

section Small

/-- A run with an entry script that is asked for the root and given a path of the executable. -/
def showingRootOf (path entry : String) : Invocation :=
  ⟨"node" :: entry :: ["--exe", path, "root"], Config.twoVariables, "/p"⟩

theorem readRequest_showingRootOf (entry : String) :
    CommandLine.readRequest (showingRootOf "bin/tool" entry).userArguments =
      .run ⟨false, [], some "bin/tool"⟩ .root := by
  have hwords : CommandLine.readRequest ["--exe", "bin/tool", "root"] =
      .run ⟨false, [], some "bin/tool"⟩ .root := by cbv
  exact hwords

theorem readRequest_showingRootOf_empty (entry : String) :
    CommandLine.readRequest (showingRootOf "" entry).userArguments =
      .run ⟨false, [], some ""⟩ .root := by
  have hwords : CommandLine.readRequest ["--exe", "", "root"] =
      .run ⟨false, [], some ""⟩ .root := by cbv
  exact hwords

/-- The path is set, and the other argument is not for the program. -/
theorem sets_showingRootOf (path : String) :
    CommandLine.Sets ["--exe", path, "root"] [(.executable, path)] :=
  have hwrites : CommandLine.Writes (.executable, path) ["--exe", path] :=
    .apart path (by decide) (by decide) (by decide)
  have hword : ¬CommandLine.IsOwn "root" := fun h ↦ CommandLine.read_ne_text h (by decide)
  .own hwrites (.other hword (by decide) .nil)

/-- What a run goes by that is given the empty path. -/
def givenEmpty (entry : String) : Context :=
  (showingRootOf "" entry).contextWith ⟨false, [], some ""⟩ "/" Config.ofTwoVariables

theorem runIn_prepare_showingRootOf_empty (entry : String) :
    (prepare (showingRootOf "" entry) ⟨false, [], some ""⟩).runIn emptyWorld =
      (.ok (givenEmpty entry), stillStarted Config.ofTwoVariables emptyWorld) := by
  obtain ⟨loaded, hload⟩ := runIn_load_of_ok (w := emptyWorld) Config.ofDisk_twoVariables
  have hdirectory : Path.resolve emptyWorld.cwd ["/p"] = "/p" := by decide
  rw [← hdirectory] at hload
  exact runIn_prepare_still rfl hload rfl rfl rfl

theorem outcome_run_showingRootOf_empty (entry : String) :
    ((run (showingRootOf "" entry)).runIn emptyWorld).1 =
      exitOf ((showRoot (givenEmpty entry)).runIn
        (stillStarted Config.ofTwoVariables emptyWorld)).1 := by
  rw [outcome_run_of_request (readRequest_showingRootOf_empty entry)]
  exact outcome_runAction_of_ok (runIn_prepare_showingRootOf_empty entry)

end Small

/-- A relative path is a fault, whatever the entry script is. -/
theorem run_given_executable_relative :
    CommandLine.Sets ["--exe", "bin/tool", "root"] [(.executable, "bin/tool")] ∧
    (run (showingRootOf "bin/tool" "/r")).runIn emptyWorld =
      (run (showingRootOf "bin/tool" "/s")).runIn emptyWorld ∧
    ((run (showingRootOf "bin/tool" "/r")).runIn emptyWorld).1 = .ok 2 := by
  have hsets := sets_showingRootOf "bin/tool"
  obtain ⟨hsame, hstatus⟩ := run_given_executable hsets rfl (by decide) "node" "/r" "/s"
    Config.twoVariables "/p" emptyWorld
  obtain ⟨loaded, hload⟩ := runIn_load_of_ok (w := emptyWorld) Config.ofDisk_twoVariables
  obtain ⟨_, opened, hopening⟩ := (Journal.succeeds_configure_none "/p").exists_ok loaded
  have hdirectory : Path.resolve emptyWorld.cwd ["/p"] = "/p" := by decide
  rw [← hdirectory] at hload
  exact ⟨hsets, hsame, hstatus _ .root _ _ _ (readRequest_showingRootOf "/r") rfl hload hopening
    (by decide) (by decide) (by decide)⟩

/-- **The empty path is replaced by the entry script**: the run depends on the entry script, and it
does not fail although the path is not absolute and no variable says where the resources are. -/
theorem run_given_empty_path :
    CommandLine.Sets ["--exe", "", "root"] [(.executable, "")] ∧
    Path.isAbsolute "" = false ∧
    (Config.ofDisk .empty "/" "/home" "/p" Config.twoVariables = .ok Config.ofTwoVariables ∧
      Config.twoVariables.nonempty? Config.ofTwoVariables.tool.libdirVariable = none ∧
      Config.twoVariables.nonempty? Config.ofTwoVariables.tool.uninstalledVariable = none) ∧
    ((run (showingRootOf "" "/")).runIn emptyWorld).1 = .ok 0 ∧
    ((run (showingRootOf "" "")).runIn emptyWorld).1 = .ok 2 := by
  have hquiet := isQuiet_stillStarted Config.ofTwoVariables emptyWorld
  have hlocate : ∀ {entry outcome},
      ((givenEmpty entry).stillHost .empty "/").locate Config.ofTwoVariables [] = outcome →
      (givenEmpty entry).locate.runIn (stillStarted Config.ofTwoVariables emptyWorld) =
        (outcome, stillStarted Config.ofTwoVariables emptyWorld) := fun h ↦
    (Context.runIn_locate_of_isQuiet _ hquiet).trans (Prod.ext h rfl)
  refine ⟨sets_showingRootOf "", by decide,
    ⟨Config.ofDisk_twoVariables, by decide, by decide⟩, ?_, ?_⟩
  · have hfound : ((givenEmpty "/").stillHost .empty "/").locate Config.ofTwoVariables [] =
        .ok ⟨⟨.relocatable, ["/res/tool-2"]⟩, ⟨[], ["/res/tool-2"], [], []⟩⟩ := by cbv
    obtain ⟨shown, heq, hshown⟩ := showRoot_eq (givenEmpty "/")
    rw [outcome_run_showingRootOf_empty, heq, exitOf_bind_of_ok (hlocate hfound), (hshown _ _).1]
    rfl
  · have hlost : ((givenEmpty "").stillHost .empty "/").locate Config.ofTwoVariables [] =
        .error (.startup .noEntryScript) := by cbv
    rw [outcome_run_showingRootOf_empty, showRoot, exitOf_bind_of_error (hlocate hlost)]
    rfl

end ResourceLocator.Program
