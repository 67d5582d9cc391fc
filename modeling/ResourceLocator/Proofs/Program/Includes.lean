import ResourceLocator.Proofs.CommandLine.Settings
import ResourceLocator.Proofs.Locate.Layers
import ResourceLocator.Proofs.Program.Output

/-!
# The directories that are asked for with flags

A directory may be asked for in four ways (`CommandLine.writes_includeDir_iff`), in front of the
command and behind it, and what stands for it is never taken for anything else
(`CommandLine.Mixes.readRequest_eq`). The directories come first in the search path, in the order of
the arguments, as often as they are asked for; so the lines of a search path begin with them
(`exists_pathLines_eq`).
-/

namespace ResourceLocator

namespace CommandLine

/-- The arguments that ask for the search path, with its layers or without. -/
def pathWords (withLayers : Bool) : List String :=
  Command.path.name :: if withLayers then [Flag.layers.long] else []

/-- **The search path is asked for**, whatever settings stand between these arguments. -/
theorem readRequest_path_of_mixes {args : List String} {settings : List Setting}
    {withLayers : Bool} (h : Mixes args settings (pathWords withLayers)) :
    readRequest args = .run (.ofSettings settings) (.path withLayers) := by
  have hdashes : "--" ∉ pathWords withLayers := by cases withLayers <;> decide
  have hwords : readRequest (pathWords withLayers) =
      .run ⟨false, [], none⟩ (.path withLayers) := by cases withLayers <;> cbv
  exact h.readRequest_eq hdashes hwords

end CommandLine

namespace Program

variable {w loaded opened started after : World} {invocation : Invocation} {config : Config}
  {options : CommandLine.Options} {context : Context} {located : Located} {withLayers : Bool}
  {settings : List CommandLine.Setting}

/-- A directory of the user layer, as it is shown. -/
def userLine (withLayers : Bool) (dir : String) : String :=
  if withLayers then "user\t" ++ dir else dir

/-- **The lines of a search path** begin with those of the user layer. -/
theorem exists_pathLines_eq (withLayers : Bool) (located : Located) :
    ∃ more, pathLines withLayers located =
      located.layers.user.map (userLine withLayers) ++ more := by
  obtain ⟨others, hlabelled⟩ : ∃ others,
      located.layers.labelled = located.layers.user.map (Layer.user, ·) ++ others := ⟨_, rfl⟩
  cases withLayers with
  | true =>
    refine ⟨others.map layerLine, ?_⟩
    rw [pathLines, if_pos rfl, hlabelled, List.map_append, List.map_map]
    rfl
  | false =>
    refine ⟨others.map (·.2), ?_⟩
    rw [pathLines, if_neg Bool.false_ne_true, Located.searchPath, ← Layers.labelled_map_snd,
      hlabelled, List.map_append, List.map_map]
    rfl

/-- **What a run shows of the search path** begins with the user layer. -/
theorem exists_output_runAction_path
    (hprepare : (prepare invocation options).runIn w = (.ok context, started))
    (hlocate : context.locate.runIn started = (.ok located, after)) (withLayers : Bool) :
    ∃ rest, ((runAction invocation options (.path withLayers)).runIn w).2.output =
      w.output ++ Console.text ((context.userIncludes ++ context.config.includes).map
        (userLine withLayers)) ++ rest := by
  obtain ⟨more, hlines⟩ := exists_pathLines_eq withLayers located
  refine ⟨Console.text more, ?_⟩
  rw [output_runAction_path hprepare hlocate, hlines, Context.user_of_runIn_locate hlocate,
    Console.text_append, String.append_assoc]

/-- **The directories that are asked for with flags** come first. They may be written in four ways,
and stand anywhere in front of the command and behind it. They are made absolute and keep their
order and their number; behind them come those of the configuration. Both are shown before
everything else. -/
theorem run_path_begins_with_asked (invocation : Invocation) (w : World)
    (hmixes : CommandLine.Mixes invocation.userArguments settings
      (CommandLine.pathWords withLayers))
    (hload : (Config.load (Path.resolve w.cwd [invocation.directory]) invocation.env).runIn w =
      (.ok config, loaded))
    (hopening : (opening invocation (.ofSettings settings) w.cwd config).runIn loaded =
      (.ok (), opened)) :
    let dirs := (CommandLine.valuesOf .includeDir settings).map fun dir ↦
      Path.resolve w.cwd [Path.resolve w.cwd [invocation.directory], dir]
    let context := invocation.contextWith (.ofSettings settings) w.cwd config
    (∀ dir written, CommandLine.Writes (.includeDir, dir) written ↔
      written = ["-I", dir] ∨ (dir ≠ "" ∧ written = ["-I" ++ dir]) ∨
        written = ["--include", dir] ∨ written = ["--include=" ++ dir]) ∧
    (∀ dir ∈ dirs, Path.isAbsolute dir = true) ∧
    ∃ started, (prepare invocation (.ofSettings settings)).runIn w = (.ok context, started) ∧
      ∀ located after, context.locate.runIn started = (.ok located, after) →
        located.layers.user = dirs ++ config.includes ∧
        ((run invocation).runIn w).1 = .ok 0 ∧
        ∃ rest, ((run invocation).runIn w).2.output = w.output ++ Console.text
          ((dirs ++ config.includes).map fun dir ↦ if withLayers then "user\t" ++ dir else dir) ++
            rest := by
  intro dirs context
  obtain ⟨started, hprepare⟩ := exists_runIn_prepare hload hopening
  rw [run_of_request (CommandLine.readRequest_path_of_mixes hmixes)]
  refine ⟨CommandLine.writes_includeDir_iff, fun dir hdir ↦ ?_, started, hprepare,
    fun located after hlocate ↦ ⟨Context.user_of_runIn_locate hlocate,
      outcome_runAction_path_of_ok hprepare hlocate withLayers,
      exists_output_runAction_path hprepare hlocate withLayers⟩⟩
  obtain ⟨given, -, rfl⟩ := List.mem_map.1 hdir
  exact Location.isAbsolute_toPath _

/-- With the three variables the resources are those of the library directory, whatever else the
user asks for. -/
theorem runIn_locate_of_libdir (hquiet : w.IsQuiet) (hdisk : w.disk = .empty) (hcwd : w.cwd = "/")
    (directory : String) (userIncludes : List String) (executable : Except Failure String) :
    (Context.mk Config.ofTwoVariables libdirVariables directory userIncludes
      executable).locate.runIn w =
        (.ok ⟨⟨.libdir, ["/lib"]⟩, ⟨userIncludes ++ [], ["/lib"], [], []⟩⟩, w) := by
  rw [Context.runIn_locate_of_isQuiet _ hquiet, hdisk, hcwd]
  rfl

/-- Directories that look like flags, like a command or like nothing are directories all the
same. -/
theorem run_path_begins_with_dashes :
    let args := ["-I", "--", "path", "--include=", "--layers", "-Ipath", "--include", "-h"]
    let settings := ["--", "", "path", "-h"].map fun dir ↦ (CommandLine.Flag.includeDir, dir)
    let invocation : Invocation := ⟨["node", "/r"] ++ args, libdirVariables, "/p"⟩
    CommandLine.Mixes args settings (CommandLine.pathWords true) ∧
    (∃ loaded opened, (Config.load "/p" libdirVariables).runIn emptyWorld =
        (.ok Config.ofTwoVariables, loaded) ∧
      (opening invocation (.ofSettings settings) emptyWorld.cwd Config.ofTwoVariables).runIn
        loaded = (.ok (), opened)) ∧
    ((run invocation).runIn emptyWorld).1 = .ok 0 ∧
    ∃ rest, ((run invocation).runIn emptyWorld).2.output =
      "user\t/p/--\nuser\t/p\nuser\t/p/path\nuser\t/p/-h\n" ++ rest := by
  intro args settings invocation
  have hother : ∀ arg, CommandLine.read CommandLine.Flag.ofProgram arg = ⟨[], .text arg⟩ →
      ¬CommandLine.IsOwn arg := fun _ hread hown ↦ CommandLine.read_ne_text hown hread
  have hwrites := fun dir written ↦ (CommandLine.writes_includeDir_iff dir written).2
  have hmixes : CommandLine.Mixes args settings (CommandLine.pathWords true) :=
    .own (hwrites "--" _ (.inl rfl)) <| .other (hother _ (by decide)) <|
      .own (hwrites "" _ (.inr (.inr (.inr rfl)))) <| .other (hother _ (by decide)) <|
      .own (hwrites "path" _ (.inr (.inl ⟨by decide, rfl⟩))) <|
      .own (hwrites "-h" _ (.inr (.inr (.inl rfl)))) .nil
  obtain ⟨loaded, hload⟩ := runIn_load_of_ok (w := emptyWorld) ofDisk_libdirVariables
  have hdirectory : Path.resolve emptyWorld.cwd ["/p"] = "/p" := by decide
  have hasked : (Config.load (Path.resolve emptyWorld.cwd ["/p"]) libdirVariables).runIn
      emptyWorld = (.ok Config.ofTwoVariables, loaded) := by
    rw [hdirectory]
    exact hload
  obtain ⟨_, opened, hopening⟩ := (Journal.succeeds_configure_none
    (Path.resolve emptyWorld.cwd ["/p"])).exists_ok loaded
  have hprepare : (prepare invocation (.ofSettings settings)).runIn emptyWorld =
      (.ok (invocation.contextWith (.ofSettings settings) emptyWorld.cwd Config.ofTwoVariables),
        stillStarted Config.ofTwoVariables emptyWorld) :=
    runIn_prepare_still rfl hasked rfl rfl rfl
  obtain ⟨-, -, started, hstarted, hshown⟩ := run_path_begins_with_asked invocation emptyWorld
    hmixes hasked hopening
  obtain ⟨-, rfl⟩ := Prod.mk.inj (hprepare.symm.trans hstarted)
  obtain ⟨-, hexit, rest, houtput⟩ := hshown _ _
    (runIn_locate_of_libdir (isQuiet_stillStarted _ _) rfl rfl _ _ _)
  refine ⟨hmixes, ⟨loaded, opened, hload, hopening⟩, hexit, rest, ?_⟩
  rw [houtput]
  exact congrArg (· ++ rest) (by cbv)

end Program

end ResourceLocator
