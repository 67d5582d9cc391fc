import Mathlib.Data.Option.Basic
import ResourceLocator.Proofs.Config.Precedence
import ResourceLocator.Proofs.Config.Sound
import ResourceLocator.Proofs.Value.Written

/-!
# A configuration as environment variables

A configuration can be written as the values of the variables that override it (`toEnvironment`):
one for each key of a file that it has something to say at, and none for a key of a section. Where
no file is there, loading gives it back (`ofDisk_toEnvironment`), in any directory. This rests on
three facts.

* A variable is read as the value that was written (`readValue_written`).
* So the sources have at each key what the configuration says there (`resolved_toEnvironment`).
* What a sound configuration says makes an accepted file, and the configuration is made of it again
  (`accepts_toFields`, `ofFile_toFields`).
-/

namespace ResourceLocator

variable {disk disk' : FileSystem} {cwd cwd' home home' dir dir' key : String} {env : Environment}
  {config : Config} {o : Override}

/-! ### Writing values of variables -/

/-- The JSON text of a value that has one. -/
def Value.json (v : Value) : String :=
  match Json.write? v with
  | .ok (some s) => s
  | _ => ""

namespace Override

/-- A value that a variable can be given for. -/
inductive CanGive : OverrideKind → Value → Prop where
  /-- A text stands for itself. -/
  | text (s : String) : CanGive .text (.text s)
  /-- A truth value is written in words. -/
  | truth (b : Bool) : CanGive .truth (.bool b)
  /-- Anything else is written as JSON. -/
  | json {v : Value} (h : Json.IsKept v) : CanGive .json v

/-- The value of a variable that stands for a value. -/
def written (o : Override) (v : Value) : String :=
  match o.kind, v with
  | .text, .text s => s
  | _, v => v.json

theorem readTruth?_json (b : Bool) : readTruth? (Value.bool b).json = some b := by
  have hjson : (Value.bool b).json = if b then "true" else "false" := by
    rw [Value.json, Json.write?]
  rw [hjson]
  cases b <;> decide

/-- **A variable is read as what was written.** -/
theorem readValue_written {v : Value} (h : CanGive o.kind v) :
    o.readValue (o.written v) = .ok v := by
  obtain ⟨inSection, key, kind⟩ := o
  cases h with
  | text s => rfl
  | truth b => simp only [readValue, written, readTruth?_json]
  | json hkept =>
    obtain ⟨text, hwrite, hread⟩ := Json.read?_of_isKept hkept
    have hjson : v.json = text := by rw [Value.json, hwrite]
    simp only [readValue, written, hjson, hread]

/-- The overrides of whole keys. -/
def wholes : List Override := all.filter (·.inSection = none)

theorem mem_wholes_iff : o ∈ wholes ↔ o ∈ all ∧ o.inSection = none := by
  simp [wholes]

theorem find?_variableName : ∀ o ∈ wholes,
    (wholes.find? fun other ↦ other.variableName = o.variableName) = some o := by
  decide

/-- The variable of an override in a section is not that of a whole key. -/
theorem find?_variableName_of_inSection : ∀ leaf ∈ all, leaf.inSection ≠ none →
    (wholes.find? fun other ↦ other.variableName = leaf.variableName) = none := by
  decide

end Override

namespace Config

open ConfigFile Override

/-! ### What a configuration says -/

/-- The companion as a section of a file. -/
def traceToolSection (tool : TraceTool) : Value :=
  .record [("env_var", .text tool.variableName), ("companion", .text tool.companion)]

/-- How the debug log is kept, as a section of a file. -/
def debugSection (debug : JournalConfig) : Value :=
  .record (("enabled", .bool debug.enabled) ::
    (debug.logFile.map fun file ↦ ("log_file", Value.text file)).toList)

/-- What a file has at a key if it says what the configuration says. The prefix that comes from the
package need not be said. -/
def said (config : Config) (key : String) : Option Value :=
  match key with
  | "package" => some (.text config.tool.package)
  | "api_version" => some (.text config.tool.apiVersion)
  | "env_prefix" =>
    if config.tool.envPrefix = Tool.defaultPrefix config.tool.package then none
    else some (.text config.tool.envPrefix)
  | "resource_offset" => some (.text config.resourceOffset)
  | "includes" => some (.ofTexts config.includes)
  | "system_dirs" => some (.ofTexts config.systemDirs)
  | "development_dirs" => some (.ofTexts config.developmentDirs)
  | "trace_tool" => config.traceTool.map traceToolSection
  | "log_level" => some (.text config.logLevel.name)
  | "debug" => config.debug.map debugSection
  | "verbose" => some (.bool config.verbose)
  | _ => none

/-- The fields of a file that says what the configuration says. -/
def toFields (config : Config) : Fields :=
  knownFields.filterMap fun field ↦ (config.said field.key).map (field.key, ·)

/-- The environment that says what the configuration says: each variable of a whole key stands for
what is said there, and no other variable is set. -/
def toEnvironment (config : Config) : Environment := fun name ↦
  (wholes.find? fun o ↦ o.variableName = name).bind fun o ↦ (config.said o.key).map o.written

theorem isKept_ofTexts (texts : List String) : Json.IsKept (.ofTexts texts) := by
  refine .list fun item hitem ↦ ?_
  obtain ⟨s, -, rfl⟩ := List.mem_map.1 hitem
  exact .text s

theorem isKept_traceToolSection (tool : TraceTool) : Json.IsKept (traceToolSection tool) := by
  have horder : Fields.precedes "companion" "env_var" = false := by decide
  refine .record ?_ (by simp [Fields.ofList, Fields.put, horder])
  simp only [List.forall_mem_cons]
  exact ⟨.text _, .text _, fun _ h ↦ absurd h List.not_mem_nil⟩

theorem isKept_debugSection (debug : JournalConfig) : Json.IsKept (debugSection debug) := by
  have horder : Fields.precedes "log_file" "enabled" = false := by decide
  obtain ⟨enabled, logFile⟩ := debug
  cases logFile with
  | none =>
    refine .record ?_ (by simp [Fields.ofList, Fields.put])
    simp only [Option.map_none, Option.toList_none, List.forall_mem_cons]
    exact ⟨.bool _, fun _ h ↦ absurd h List.not_mem_nil⟩
  | some file =>
    refine .record ?_ (by simp [Fields.ofList, Fields.put, horder])
    simp only [Option.map_some, Option.toList_some, List.forall_mem_cons]
    exact ⟨.bool _, .text _, fun _ h ↦ absurd h List.not_mem_nil⟩

theorem forall_mem_some {p : Value → Prop} {w : Value} (h : p w) : ∀ v ∈ some w, p v := fun _ hv ↦
  Option.some.inj hv ▸ h

/-- **What is said at a key can be given by its variable.** -/
theorem canGive_said (config : Config) : ∀ o ∈ wholes, ∀ v ∈ config.said o.key,
    CanGive o.kind v := by
  have hwholes : wholes = [⟨none, "package", .text⟩, ⟨none, "api_version", .text⟩,
      ⟨none, "env_prefix", .text⟩, ⟨none, "resource_offset", .text⟩, ⟨none, "includes", .json⟩,
      ⟨none, "system_dirs", .json⟩, ⟨none, "development_dirs", .json⟩, ⟨none, "trace_tool", .json⟩,
      ⟨none, "log_level", .text⟩, ⟨none, "debug", .json⟩, ⟨none, "verbose", .truth⟩] := by decide
  have hprefix : ∀ v ∈ config.said "env_prefix", CanGive .text v := by
    intro v hv
    obtain ⟨-, hv⟩ := Option.mem_ite_none_left.1 hv
    exact Option.some.inj hv ▸ .text _
  have hdirs : ∀ texts, ∀ v ∈ some (Value.ofTexts texts), CanGive .json v := fun texts ↦
    forall_mem_some (.json (isKept_ofTexts texts))
  simp only [hwholes, List.forall_mem_cons]
  exact ⟨forall_mem_some (.text _), forall_mem_some (.text _), hprefix, forall_mem_some (.text _),
    hdirs _, hdirs _, hdirs _,
    Option.forall_mem_map.2 fun tool _ ↦ .json (isKept_traceToolSection tool),
    forall_mem_some (.text _),
    Option.forall_mem_map.2 fun debug _ ↦ .json (isKept_debugSection debug),
    forall_mem_some (.truth _), fun _ h ↦ absurd h List.not_mem_nil⟩

/-! ### What the sources have -/

theorem get?_toFields (config : Config) (h : key ∈ knownFields.map (·.key)) :
    Fields.get? config.toFields key = config.said key := by
  obtain ⟨field, hfield, rfl⟩ := List.mem_map.1 h
  exact Fields.get?_filterMap Schema.Field.key (fun field ↦ config.said field.key) nodup_knownFields
    hfield

theorem keys_toFields_subset (config : Config) :
    Fields.keys config.toFields ⊆ knownFields.map (·.key) :=
  (Fields.keys_filterMap knownFields Schema.Field.key fun field ↦ config.said field.key).subset

theorem exists_whole_of_mem_knownFields :
    ∀ key ∈ knownFields.map (·.key), ∃ o ∈ wholes, o.key = key := by decide

theorem toEnvironment_variableName (config : Config) (ho : o ∈ wholes) :
    config.toEnvironment o.variableName = (config.said o.key).map o.written := by
  rw [toEnvironment, find?_variableName o ho, Option.bind_some]

theorem toEnvironment_of_inSection (config : Config) {leaf : Override} (hleaf : leaf ∈ all)
    (h : leaf.inSection ≠ none) : config.toEnvironment leaf.variableName = none := by
  rw [toEnvironment, find?_variableName_of_inSection leaf hleaf h, Option.bind_none]

/-- **The variables give what is said.** -/
theorem value?_toEnvironment (config : Config) (ho : o ∈ wholes) :
    value? config.toEnvironment o = config.said o.key := by
  rw [value?, toEnvironment_variableName config ho]
  cases hsaid : config.said o.key with
  | none => rfl
  | some v =>
    rw [Option.map_some, Option.bind_some, readValue_written (canGive_said config o ho v hsaid)]
    rfl

theorem allReadable_toEnvironment (config : Config) : AllReadable config.toEnvironment := by
  intro o ho raw hraw
  by_cases hwhole : o.inSection = none
  · have hmem := mem_wholes_iff.2 ⟨ho, hwhole⟩
    rw [toEnvironment_variableName config hmem] at hraw
    obtain ⟨v, hsaid, rfl⟩ := Option.map_eq_some_iff.1 hraw
    exact ⟨v, readValue_written (canGive_said config o hmem v hsaid)⟩
  · rw [toEnvironment_of_inSection config ho hwhole] at hraw
    cases hraw

/-- **The sources have what is said**, if there are no files. -/
theorem resolved_toEnvironment (config : Config) (key : String) :
    resolved config.toEnvironment [] [] key = Fields.get? config.toFields key := by
  by_cases hknown : key ∈ knownFields.map (·.key)
  · obtain ⟨o, ho, rfl⟩ := exists_whole_of_mem_knownFields key hknown
    obtain ⟨hall, hwhole⟩ := mem_wholes_iff.1 ho
    have hleaves : ∀ leaf ∈ all.filter fun other ↦ other.inSection = some o.key,
        value? config.toEnvironment leaf = none := by
      intro leaf hleaf
      obtain ⟨hmem, hsection⟩ := inSection_of_mem_filter hleaf
      have hne : leaf.inSection ≠ none := by simp [hsection]
      rw [value?, toEnvironment_of_inSection config hmem hne, Option.bind_none]
    rw [resolved_of_whole hall hwhole, foldl_step_eq_self hleaves, picked,
      given_of_whole hall hwhole, value?_toEnvironment config ho, get?_toFields config hknown]
    exact Option.or_none
  · -- No override changes anything at any other key.
    have hroots : ∀ o ∈ all, o.root ∈ knownFields.map (·.key) := by decide
    have hnone : (all.filter fun o ↦ o.root = key) = [] := by
      rw [List.filter_eq_nil_iff]
      exact fun o ho hkey ↦ hknown (of_decide_eq_true hkey ▸ hroots o ho)
    have habsent : Fields.get? config.toFields key = none :=
      Fields.get?_eq_none_iff.2 fun hmem ↦ hknown (keys_toFields_subset config hmem)
    rw [resolved, hnone, List.foldl_nil, habsent]
    rfl

/-! ### What is made of it -/

theorem dirsSchema_accepts_ofTexts {texts : List String} (h : ∀ s ∈ texts, Path.IsNormalized s) :
    dirsSchema.Accepts (.ofTexts texts) := by
  refine Schema.listOf_accepts_iff.2 ⟨_, rfl, fun item hitem ↦ ?_⟩
  obtain ⟨s, hs, rfl⟩ := List.mem_map.1 hitem
  exact nonempty_accepts_text.2 (h s hs).ne_empty

theorem IsSound.accepts_traceToolSection (h : IsSound config) {tool : TraceTool}
    (htool : config.traceTool = some tool) : traceToolSchema.Accepts (traceToolSection tool) := by
  refine Schema.record_accepts_iff.2 ⟨_, rfl, fun key hkey ↦ hkey, ?_⟩
  simp only [traceToolFields, List.forall_mem_cons, Schema.Field.whole_accepts_iff]
  exact ⟨.inr (form_accepts_text.2 (h.traceVariable tool htool)),
    .inr (nonempty_accepts_text.2 (h.companion tool htool)),
    fun _ hnil ↦ absurd hnil List.not_mem_nil⟩

theorem IsSound.accepts_debugSection (h : IsSound config) {debug : JournalConfig}
    (hdebug : config.debug = some debug) : debugSchema.Accepts (debugSection debug) := by
  obtain ⟨enabled, logFile⟩ := debug
  have henabled : Schema.bool.Accepts (.bool enabled) := Schema.bool_accepts_iff.2 ⟨enabled, rfl⟩
  cases logFile with
  | none =>
    refine Schema.record_accepts_iff.2 ⟨_, rfl, fun key hkey ↦ ?_, ?_⟩
    · exact List.mem_cons.2 (.inl (List.mem_singleton.1 hkey))
    simp only [debugFields, List.forall_mem_cons, Schema.Field.whole_accepts_iff]
    exact ⟨.inr henabled, .inl ⟨trivial, rfl⟩, fun _ hnil ↦ absurd hnil List.not_mem_nil⟩
  | some file =>
    have hne : file ≠ "" := fun hempty ↦ h.logFile _ hdebug (congrArg some hempty)
    refine Schema.record_accepts_iff.2 ⟨_, rfl, fun key hkey ↦ hkey, ?_⟩
    simp only [debugFields, List.forall_mem_cons, Schema.Field.whole_accepts_iff]
    exact ⟨.inr henabled, .inr (nonempty_accepts_text.2 hne),
      fun _ hnil ↦ absurd hnil List.not_mem_nil⟩

/-- What may be left out is accepted if what is there is. -/
theorem whole_accepts_of_forall {known : Schema} {v : Option Value} (h : ∀ w ∈ v, known.Accepts w) :
    (Schema.Field.mk key known true).whole.Accepts (v.getD .undefined) := by
  refine Schema.Field.whole_accepts_iff.2 ?_
  cases v with
  | none => exact .inl ⟨rfl, rfl⟩
  | some w => exact .inr (h w rfl)

/-- **What a sound configuration says is accepted.** -/
theorem IsSound.accepts_toFields (h : IsSound config) :
    schema.Accepts (.record config.toFields) := by
  have hprefix : ∀ v ∈ config.said "env_prefix", (Schema.form EnvName.isWellFormed
      "must be an UPPER_SNAKE environment variable prefix").Accepts v := by
    intro v hv
    obtain ⟨hne, hv⟩ := Option.mem_ite_none_left.1 hv
    exact Option.some.inj hv ▸ form_accepts_text.2 (h.envPrefix.resolve_left hne)
  have hlevel : ∀ level : Level, logLevelSchema.Accepts (.text level.name) := fun level ↦
    Schema.oneOf_accepts_iff.2 ⟨_, List.mem_map_of_mem (by cases level <;> decide), rfl⟩
  have hat : ∀ field ∈ knownFields,
      field.whole.Accepts ((config.said field.key).getD .undefined) := by
    simp only [knownFields, List.forall_mem_cons]
    exact ⟨whole_accepts_of_forall (forall_mem_some (nonempty_accepts_text.2 h.package)),
      whole_accepts_of_forall (forall_mem_some (nonempty_accepts_text.2 h.apiVersion)),
      whole_accepts_of_forall hprefix,
      whole_accepts_of_forall (forall_mem_some (nonempty_accepts_text.2 h.resourceOffset)),
      whole_accepts_of_forall (forall_mem_some (dirsSchema_accepts_ofTexts h.includes)),
      whole_accepts_of_forall (forall_mem_some (dirsSchema_accepts_ofTexts h.systemDirs)),
      whole_accepts_of_forall (forall_mem_some (dirsSchema_accepts_ofTexts h.developmentDirs)),
      whole_accepts_of_forall (Option.forall_mem_map.2 fun _ ↦ h.accepts_traceToolSection),
      whole_accepts_of_forall (forall_mem_some (hlevel config.logLevel)),
      whole_accepts_of_forall (Option.forall_mem_map.2 fun _ ↦ h.accepts_debugSection),
      whole_accepts_of_forall (forall_mem_some (Schema.bool_accepts_iff.2 ⟨_, rfl⟩)),
      fun _ hnil ↦ absurd hnil List.not_mem_nil⟩
  refine Schema.record_accepts_iff.2 ⟨_, rfl, keys_toFields_subset config, fun field hfield ↦ ?_⟩
  rw [get?_toFields config (List.mem_map_of_mem hfield)]
  exact hat field hfield

/-- The file that says what the configuration says, taken apart. -/
theorem ofFields_toFields (config : Config) : ofFields config.toFields = {
    package := some config.tool.package
    apiVersion := some config.tool.apiVersion
    envPrefix := if config.tool.envPrefix = Tool.defaultPrefix config.tool.package then none
      else some config.tool.envPrefix
    resourceOffset := some config.resourceOffset
    includes := some config.includes
    systemDirs := some config.systemDirs
    developmentDirs := some config.developmentDirs
    traceTool := config.traceTool
    logLevel := some config.logLevel
    debug := config.debug.map fun debug ↦ ⟨some debug.enabled, debug.logFile⟩
    verbose := some config.verbose } := by
  have hprefix : (config.said "env_prefix").bind asText =
      if config.tool.envPrefix = Tool.defaultPrefix config.tool.package then none
      else some config.tool.envPrefix := by
    have hsaid : config.said "env_prefix" =
        if config.tool.envPrefix = Tool.defaultPrefix config.tool.package then none
        else some (.text config.tool.envPrefix) := rfl
    rw [hsaid]
    split <;> rfl
  have hdirs : ∀ key dirs, config.said key = some (.ofTexts dirs) →
      (config.said key).bind asTexts = some dirs := fun key dirs hsaid ↦ by
    rw [hsaid, Option.bind_some]
    exact dirs_reading.read_encode dirs
  have htool : (config.said "trace_tool").bind asTraceTool = config.traceTool := by
    show (config.traceTool.map traceToolSection).bind asTraceTool = _
    cases config.traceTool <;> rfl
  have hdebug : (config.said "debug").bind asDebug =
      config.debug.map fun debug ↦ ⟨some debug.enabled, debug.logFile⟩ := by
    show (config.debug.map debugSection).bind asDebug = _
    rcases config.debug with - | ⟨enabled, - | file⟩ <;> rfl
  have hlevel : ((config.said "log_level").bind asText).bind Level.ofName? =
      some config.logLevel := Level.ofName?_name config.logLevel
  simp (disch := decide) only [ofFields, get?_toFields, hprefix, htool, hdebug, hlevel]
  rw [hdirs "includes" _ rfl, hdirs "system_dirs" _ rfl, hdirs "development_dirs" _ rfl]
  rfl

/-- **A sound configuration is made of what it says**, wherever it is made. -/
theorem IsSound.ofFile_toFields (h : IsSound config) (cwd dir : String) :
    ofFile cwd dir (ofFields config.toFields) = .ok config := by
  have hdirs : ∀ dirs : List String, (∀ d ∈ dirs, Path.IsNormalized d) →
      (dirs.map fun d ↦ Path.resolve cwd [dir, d]) = dirs := fun dirs hdirs ↦
    (List.map_congr_left fun d hd ↦ (hdirs d hd).resolve_eq cwd dir).trans (List.map_id _)
  have hprefix : (if config.tool.envPrefix = Tool.defaultPrefix config.tool.package then none
      else some config.tool.envPrefix).getD (Tool.defaultPrefix config.tool.package) =
        config.tool.envPrefix := by
    split
    · next heq => exact heq.symm
    · rfl
  rw [ofFields_toFields]
  refine ofFile_eq_ok_iff.2 ⟨_, _, rfl, rfl, ?_⟩
  simp only [Option.getD_some, hprefix, hdirs _ h.includes, hdirs _ h.systemDirs,
    hdirs _ h.developmentDirs, Option.map_map]
  obtain ⟨⟨package, apiVersion, envPrefix⟩, offset, includes, system, development, tool, level,
    debug, verbose⟩ := config
  cases debug <;> rfl

/-- **A configuration that is loaded can be loaded of its variables alone**, on any disk and in any
directory that has no configuration files. -/
theorem ofDisk_toEnvironment (h : ofDisk disk cwd home dir env = .ok config)
    (hglobal : ¬IsThere disk' cwd' (globalPath home' config.toEnvironment))
    (hproject : ¬IsThere disk' cwd' (projectPath cwd' dir')) :
    ofDisk disk' cwd' home' dir' config.toEnvironment = .ok config := by
  have hsound := isSound_of_ofDisk h
  rw [ofDisk_of_sources (read_of_not_there hglobal) (read_of_not_there hproject)
    schema_accepts_nil schema_accepts_nil (allReadable_toEnvironment config) hsound.accepts_toFields
    fun key ↦ resolved_toEnvironment config key ▸ Value.AlikeOption.refl _]
  exact hsound.ofFile_toFields cwd' dir'

/-- A configuration that is made of two files and an environment is loaded again of its variables
alone in another directory. Both sections, the prefix and three lists are among them. -/
theorem ofDisk_toEnvironment_of_layers :
    (ofLayers.toEnvironment "RELOC_ENV_PREFIX" = some "MYTOOL" ∧
      ofLayers.toEnvironment "RELOC_INCLUDES" = some "[\"/p/a\",\"/b\"]" ∧
      ofLayers.toEnvironment "RELOC_TRACE_TOOL" =
        some "\x7b\"env_var\":\"AUTOM4TE\",\"companion\":\"autom4te\"\x7d" ∧
      ofLayers.toEnvironment "RELOC_DEBUG" =
        some "\x7b\"enabled\":true,\"log_file\":\"tool.log\"\x7d") ∧
    ¬IsThere .empty "/" (globalPath "/home" ofLayers.toEnvironment) ∧
    ¬IsThere .empty "/" (projectPath "/" "/q") ∧
    ofDisk .empty "/" "/home" "/q" ofLayers.toEnvironment = .ok ofLayers := by
  have hdirectory : ofLayers.toEnvironment directoryVariable = none := by decide
  have hglobal := not_isThere_home ofLayers.toEnvironment hdirectory
  have hproject : ¬IsThere .empty "/" (projectPath "/" "/q") :=
    not_isThere_empty "q" [".reloc", "config.yaml"] (by decide) (by decide) (by decide) (by decide)
  exact ⟨by decide +kernel, hglobal, hproject, ofDisk_toEnvironment ofDisk_layers hglobal hproject⟩

end Config

end ResourceLocator
