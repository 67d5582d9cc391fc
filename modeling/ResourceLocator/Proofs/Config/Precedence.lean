import ResourceLocator.Proofs.Config.Settings
import ResourceLocator.Proofs.Value.Equality

/-!
# Precedence

What is loaded follows the files and the environment that it is loaded of (`Config.precedence`):
each setting is that of the environment, or else that of the upper file, or else that of the lower
file, or else its default. What the files have is told by the documents in them
(`ConfigFile.HasFields`).

Since the environment comes before both files, no file has a say in what it gives. Configurations
that follow one environment have the same at each key that it gives a value for
(`Follows.setting_eq`), and a file may have anything else there without changing what is loaded
(`resolved_alike_of_agreeBut`).
-/

namespace ResourceLocator

variable {disk : FileSystem} {cwd home dir : String} {env : Environment}
  {lower upper lower' upper' : Fields} {config config' : Config}

namespace Config

open ConfigFile Override

/-! ### What no file has a say in -/

/-- What a configuration has at a dotted key, as a value. -/
def setting (config : Config) (key : String) : Option Value :=
  match key with
  | "package" => some (.text config.tool.package)
  | "api_version" => some (.text config.tool.apiVersion)
  | "env_prefix" => some (.text config.tool.envPrefix)
  | "resource_offset" => some (.text config.resourceOffset)
  | "includes" => some (.ofTexts config.includes)
  | "system_dirs" => some (.ofTexts config.systemDirs)
  | "development_dirs" => some (.ofTexts config.developmentDirs)
  | "trace_tool" => config.traceTool.map fun tool ↦
      .record [("env_var", .text tool.variableName), ("companion", .text tool.companion)]
  | "trace_tool.env_var" => config.traceTool.map fun tool ↦ .text tool.variableName
  | "trace_tool.companion" => config.traceTool.map fun tool ↦ .text tool.companion
  | "log_level" => some (.text config.logLevel.name)
  | "debug" => config.debug.map fun debug ↦
      .record [("enabled", .bool debug.enabled),
        ("log_file", (debug.logFile.map .text).getD .undefined)]
  | "debug.enabled" => config.debug.map fun debug ↦ .bool debug.enabled
  | "debug.log_file" => config.debug.bind fun debug ↦ debug.logFile.map .text
  | "verbose" => some (.bool config.verbose)
  | _ => none

variable {key name : String}

/-- What is set at a key counts there, whatever the files have. -/
theorem picked_eq_of_given (h : given env key ≠ none) (lower upper lower' upper' : Fields) :
    picked env lower upper key = picked env lower' upper' key := by
  obtain ⟨v, hv⟩ := Option.ne_none_iff_exists'.1 h
  rw [picked, picked, hv, Option.some_or, Option.some_or]

theorem pickedIn_eq_of_given (h : given env (name ++ "." ++ key) ≠ none)
    (lower upper lower' upper' : Fields) :
    pickedIn env lower upper name key = pickedIn env lower' upper' name key := by
  obtain ⟨v, hv⟩ := Option.ne_none_iff_exists'.1 h
  rw [pickedIn, pickedIn, hv, Option.some_or, Option.some_or]

/-- A section in which a key is set is there. -/
theorem not_isAbsent_of_given {leaf : Override} (hleaf : leaf ∈ all)
    (hsection : leaf.inSection = some name) (h : given env (name ++ "." ++ leaf.key) ≠ none)
    (lower upper : Fields) : ¬IsAbsent env lower upper name := fun habsent ↦
  h (by rw [given_of_inSection hleaf hsection, habsent.2 leaf hleaf hsection])

theorem isAbsent_eq_of_given (h : given env name ≠ none) (lower upper lower' upper' : Fields) :
    IsAbsent env lower upper name = IsAbsent env lower' upper' name := by
  rw [IsAbsent, IsAbsent, picked_eq_of_given h lower upper lower' upper']

/-- Where the whole section is set, no file has a say in any key of it. -/
theorem pickedIn_eq_of_given_section (h : given env name ≠ none) (key : String)
    (lower upper lower' upper' : Fields) :
    pickedIn env lower upper name key = pickedIn env lower' upper' name key := by
  rw [pickedIn, pickedIn, picked_eq_of_given h lower upper lower' upper']

/-- Two optional things are the same if both are absent or both are there and the same. -/
theorem option_eq_of {α : Type} {a b : Option α} (hnone : a = none ↔ b = none)
    (hsome : ∀ x y, a = some x → b = some y → x = y) : a = b := by
  cases a with
  | none => exact (hnone.1 rfl).symm
  | some x => cases b with
    | none => exact hnone.2 rfl
    | some y => rw [hsome x y rfl rfl]

namespace Follows

section Two

variable (h : Follows cwd dir env lower upper config)
  (h' : Follows cwd dir env lower' upper' config')

include h h'

theorem traceTool_eq (hgiven : given env "trace_tool" ≠ none) :
    config.traceTool = config'.traceTool := by
  have hnone : config.traceTool = none ↔ config'.traceTool = none := by
    rw [h.traceTool_eq_none_iff, h'.traceTool_eq_none_iff,
      isAbsent_eq_of_given hgiven lower upper lower' upper']
  refine option_eq_of hnone fun tool tool' htool htool' ↦ ?_
  obtain ⟨hvariable, hcompanion⟩ := h.traceTool tool htool
  obtain ⟨hvariable', hcompanion'⟩ := h'.traceTool tool' htool'
  rw [pickedIn_eq_of_given_section hgiven _ lower upper lower' upper'] at hvariable hcompanion
  have hvariableEq : tool.variableName = tool'.variableName := by
    simpa using hvariable.symm.trans hvariable'
  have hcompanionEq : tool.companion = tool'.companion := by
    simpa using hcompanion.symm.trans hcompanion'
  cases tool
  cases tool'
  rw [TraceTool.mk.injEq]
  exact ⟨hvariableEq, hcompanionEq⟩

theorem debug_eq (hgiven : given env "debug" ≠ none) : config.debug = config'.debug := by
  have hnone : config.debug = none ↔ config'.debug = none := by
    rw [h.debug_eq_none_iff, h'.debug_eq_none_iff,
      isAbsent_eq_of_given hgiven lower upper lower' upper']
  refine option_eq_of hnone fun debug debug' hdebug hdebug' ↦ ?_
  obtain ⟨henabled, hfile⟩ := h.debug debug hdebug
  obtain ⟨henabled', hfile'⟩ := h'.debug debug' hdebug'
  rw [pickedIn_eq_of_given_section hgiven _ lower upper lower' upper'] at henabled hfile
  have henabledEq := henabled.unique bool_reading henabled'
  have hfileEq := nonempty_reading.eq_of_reads hfile hfile'
  cases debug
  cases debug'
  rw [JournalConfig.mk.injEq]
  exact ⟨henabledEq, hfileEq⟩

/-- A prefix that is set is the prefix, whatever the package is. -/
theorem envPrefix_eq (hgiven : given env "env_prefix" ≠ none) :
    config.tool.envPrefix = config'.tool.envPrefix := by
  obtain ⟨v, hv⟩ := Option.ne_none_iff_exists'.1 hgiven
  obtain ⟨s, rfl⟩ : ∃ s, v = .text s := by
    have hmem : (⟨none, "env_prefix", .text⟩ : Override) ∈ all := by decide
    have hvalue : given env "env_prefix" = value? env ⟨none, "env_prefix", .text⟩ :=
      given_of_whole hmem rfl
    rw [hv] at hvalue
    obtain ⟨raw, -, hraw⟩ := Option.bind_eq_some_iff.1 hvalue.symm
    exact ⟨raw, (Option.some.inj hraw).symm⟩
  have hreads : ∀ {lower upper x}, Reads Value.text (picked env lower upper "env_prefix") x →
      x = some s := fun hx ↦ by
    rw [picked, hv, Option.some_or] at hx
    exact nonempty_reading.eq_of_reads hx (.value s)
  obtain ⟨x, hx, heq⟩ := h.envPrefix
  obtain ⟨x', hx', heq'⟩ := h'.envPrefix
  rw [heq, heq', hreads hx, hreads hx']
  rfl

end Two

/-- A companion is there if the environment gives one of its keys; no file has a say in that key. -/
theorem exists_traceTool_of_given (leaf : Override) (hleaf : leaf ∈ all)
    (hsection : leaf.inSection = some "trace_tool")
    (hgiven : given env ("trace_tool" ++ "." ++ leaf.key) ≠ none)
    (h : Follows cwd dir env lower upper config) (h' : Follows cwd dir env lower' upper' config') :
    ∃ tool tool', config.traceTool = some tool ∧ config'.traceTool = some tool' ∧
      pickedIn env lower upper "trace_tool" leaf.key =
        pickedIn env lower' upper' "trace_tool" leaf.key := by
  have hthere := not_isAbsent_of_given hleaf hsection hgiven
  obtain ⟨tool, htool⟩ := Option.ne_none_iff_exists'.1
    (mt h.traceTool_eq_none_iff.1 (hthere lower upper))
  obtain ⟨tool', htool'⟩ := Option.ne_none_iff_exists'.1
    (mt h'.traceTool_eq_none_iff.1 (hthere lower' upper'))
  exact ⟨tool, tool', htool, htool', pickedIn_eq_of_given hgiven lower upper lower' upper'⟩

/-- The debug log is spoken of if the environment gives one of its keys; no file has a say in that
key. -/
theorem exists_debug_of_given (leaf : Override) (hleaf : leaf ∈ all)
    (hsection : leaf.inSection = some "debug")
    (hgiven : given env ("debug" ++ "." ++ leaf.key) ≠ none)
    (h : Follows cwd dir env lower upper config) (h' : Follows cwd dir env lower' upper' config') :
    ∃ debug debug', config.debug = some debug ∧ config'.debug = some debug' ∧
      pickedIn env lower upper "debug" leaf.key = pickedIn env lower' upper' "debug" leaf.key := by
  have hthere := not_isAbsent_of_given hleaf hsection hgiven
  obtain ⟨debug, hdebug⟩ := Option.ne_none_iff_exists'.1
    (mt h.debug_eq_none_iff.1 (hthere lower upper))
  obtain ⟨debug', hdebug'⟩ := Option.ne_none_iff_exists'.1
    (mt h'.debug_eq_none_iff.1 (hthere lower' upper'))
  exact ⟨debug, debug', hdebug, hdebug', pickedIn_eq_of_given hgiven lower upper lower' upper'⟩

/-- **No file has a say in what is set**: two configurations that follow the same environment have
the same at each key that it gives a value for. -/
theorem setting_eq (h : Follows cwd dir env lower upper config)
    (h' : Follows cwd dir env lower' upper' config') (hgiven : given env key ≠ none) :
    config.setting key = config'.setting key := by
  have hpicked := picked_eq_of_given hgiven lower upper lower' upper'
  -- One case for each key. For a key of a section the section has to be there in the first place.
  unfold setting
  split
  · exact h.package.symm.trans (hpicked.trans h'.package)
  · exact h.apiVersion.symm.trans (hpicked.trans h'.apiVersion)
  · rw [h.envPrefix_eq h' hgiven]
  · rw [h.resourceOffset.unique nonempty_reading (hpicked ▸ h'.resourceOffset)]
  · rw [h.includes.unique (hpicked ▸ h'.includes)]
  · rw [h.systemDirs.unique (hpicked ▸ h'.systemDirs)]
  · rw [h.developmentDirs.unique (hpicked ▸ h'.developmentDirs)]
  · rw [h.traceTool_eq h' hgiven]
  · obtain ⟨tool, tool', htool, htool', hin⟩ := exists_traceTool_of_given
      ⟨some "trace_tool", "env_var", .text⟩ (by decide) rfl hgiven h h'
    rw [htool, htool']
    exact (h.traceTool tool htool).1.symm.trans (hin.trans (h'.traceTool tool' htool').1)
  · obtain ⟨tool, tool', htool, htool', hin⟩ := exists_traceTool_of_given
      ⟨some "trace_tool", "companion", .text⟩ (by decide) rfl hgiven h h'
    rw [htool, htool']
    exact (h.traceTool tool htool).2.symm.trans (hin.trans (h'.traceTool tool' htool').2)
  · rw [h.logLevel.unique level_reading (hpicked ▸ h'.logLevel)]
  · rw [h.debug_eq h' hgiven]
  · obtain ⟨debug, debug', hdebug, hdebug', hin⟩ := exists_debug_of_given
      ⟨some "debug", "enabled", .truth⟩ (by decide) rfl hgiven h h'
    rw [hdebug, hdebug', Option.map_some, Option.map_some,
      (h.debug debug hdebug).1.unique bool_reading (hin ▸ (h'.debug debug' hdebug').1)]
  · obtain ⟨debug, debug', hdebug, hdebug', hin⟩ := exists_debug_of_given
      ⟨some "debug", "log_file", .text⟩ (by decide) rfl hgiven h h'
    rw [hdebug, hdebug', Option.bind_some, Option.bind_some,
      nonempty_reading.eq_of_reads (h.debug debug hdebug).2 (hin ▸ (h'.debug debug' hdebug').2)]
  · rw [h.verbose.unique bool_reading (hpicked ▸ h'.verbose)]
  · rfl

end Follows

/-! ### Files that differ where the environment has its say -/

/-- Two files differ in nothing but the value at the key of an override. -/
structure AgreeBut (o : Override) (f g : Fields) : Prop where
  /-- Outside of its root they have the same. -/
  outside (key : String) (h : key ≠ o.root) : Fields.get? f key = Fields.get? g key
  /-- If it is in a section, both or none have that, with the same at its other keys. -/
  inside (name : String) (h : o.inSection = some name) :
    (Fields.get? f name).isSome = (Fields.get? g name).isSome ∧
      ∀ key, key ≠ o.key →
        Value.at? (Fields.get? f name) key = Value.at? (Fields.get? g name) key

section Agree

variable {o : Override}

theorem AgreeBut.refl (o : Override) (f : Fields) : AgreeBut o f f :=
  ⟨fun _ _ ↦ rfl, fun _ _ ↦ ⟨rfl, fun _ _ ↦ rfl⟩⟩

/-- To put a value at the key of an override changes nothing else, if its section is there. -/
theorem agreeBut_put (v : Value)
    (h : ∀ name ∈ o.inSection, (Fields.get? lower name).isSome = true) :
    AgreeBut o lower (o.put lower v) where
  outside key hkey := by rw [get?_put, if_neg (Ne.symm hkey)]
  inside name hname := by
    have hroot : o.root = name := by rw [root, hname, Option.getD_some]
    rw [get?_put, if_pos hroot, h name hname]
    refine ⟨rfl, fun key hkey ↦ ?_⟩
    rw [at?_update hname, if_neg (Ne.symm hkey)]

/-- What counts for a section has the same at every key but that of the override. -/
theorem at?_picked_of_agreeBut (hlower : AgreeBut o lower lower')
    (hupper : AgreeBut o upper upper') (hsection : o.inSection = some name) (hkey : key ≠ o.key) :
    Value.at? (picked env lower upper name) key =
      Value.at? (picked env lower' upper' name) key := by
  obtain ⟨hlowerSome, hlowerAt⟩ := hlower.inside name hsection
  obtain ⟨hupperSome, hupperAt⟩ := hupper.inside name hsection
  rw [picked, picked]
  cases given env name with
  | some v => rfl
  | none =>
    rw [Option.none_or, Option.none_or]
    have hat := hupperAt key hkey
    cases hget : Fields.get? upper name with
    | some v =>
      rw [hget, Option.isSome_some, eq_comm, Option.isSome_iff_exists] at hupperSome
      obtain ⟨w, hw⟩ := hupperSome
      rw [hw, Option.some_or, Option.some_or]
      rwa [hget, hw] at hat
    | none =>
      rw [hget, Option.isSome_none, eq_comm, Option.isSome_eq_false_iff, Option.isNone_iff_eq_none]
        at hupperSome
      rw [hupperSome, Option.none_or, Option.none_or]
      exact hlowerAt key hkey

/-- The section of an override is the key of another one. -/
theorem exists_whole_of_inSection : ∀ leaf ∈ all, ∀ name ∈ leaf.inSection,
    ∃ o ∈ all, o.inSection = none ∧ o.key = name := by
  decide

/-- **A set override hides what the files differ in.** -/
theorem resolved_alike_of_agreeBut (ho : o ∈ all) (hset : value? env o ≠ none)
    (hlower : AgreeBut o lower lower') (hupper : AgreeBut o upper upper') (key : String) :
    Value.AlikeOption (resolved env lower upper key) (resolved env lower' upper' key) := by
  by_cases hroot : key = o.root
  · subst hroot
    cases hsection : o.inSection with
    | none =>
      have hkey : o.root = o.key := by rw [root, hsection, Option.getD_none]
      have hgiven : given env o.key ≠ none := by rwa [given_of_whole ho hsection]
      rw [hkey, resolved_of_whole ho hsection, resolved_of_whole ho hsection,
        picked_eq_of_given hgiven lower upper lower' upper']
      exact .refl _
    | some name =>
      -- The section may come from either file, but what the files differ in is replaced in it.
      have hkey : o.root = name := by rw [root, hsection, Option.getD_some]
      obtain ⟨whole, hmem, hwhole, rfl⟩ := exists_whole_of_inSection o ho name hsection
      have hmemLeaf : o ∈ all.filter fun other ↦ other.inSection = some whole.key := by
        simpa using And.intro ho hsection
      rw [hkey, resolved_of_whole hmem hwhole, resolved_of_whole hmem hwhole]
      exact foldl_step_alike_of_at? (fun leaf h ↦ (inSection_of_mem_filter h).2)
        (nodup_keys_filter_inSection whole hmem) hmemLeaf hset
        fun key ↦ at?_picked_of_agreeBut hlower hupper hsection
  · rw [resolved, resolved, hlower.outside key hroot, hupper.outside key hroot]
    exact .refl _

end Agree

/-- What is set and can be read has a value. -/
theorem value?_ne_none (hread : AllReadable env) {o : Override} (ho : o ∈ all)
    (hset : env o.variableName ≠ none) : value? env o ≠ none := by
  obtain ⟨raw, hraw⟩ := Option.ne_none_iff_exists'.1 hset
  obtain ⟨v, hv⟩ := hread o ho raw hraw
  rw [value?_eq_some hraw hv]
  exact Option.some_ne_none v

/-- What is loaded follows its sources. -/
theorem exists_follows (h : ofDisk disk cwd home dir env = .ok config) :
    ∃ lower upper, HasFields disk cwd (globalPath home env) lower ∧
      HasFields disk cwd (projectPath cwd dir) upper ∧ AllReadable env ∧
      Follows cwd dir env lower upper config := by
  obtain ⟨lower, upper, fields, hlower, hupper, -, -, hread, haccepts, halike, hconfig⟩ :=
    exists_sources h
  exact ⟨lower, upper, read_eq_ok_iff.1 hlower, read_eq_ok_iff.1 hupper, hread,
    follows_of_alike haccepts halike hconfig⟩

/-- **Precedence.** A configuration that is loaded follows what the two files have and the
environment, and every variable that is set can be read. Whatever is loaded of other files with the
same environment has the same at the key of each override that is set. And if other accepted files
differ from these in nothing but the value at such a key, the same is loaded of them. -/
theorem precedence (h : ofDisk disk cwd home dir env = .ok config) :
    ∃ lower upper, HasFields disk cwd (globalPath home env) lower ∧
      HasFields disk cwd (projectPath cwd dir) upper ∧ AllReadable env ∧
      Follows cwd dir env lower upper config ∧
      ∀ o ∈ all, env o.variableName ≠ none → ∀ disk' : FileSystem,
        (∀ config', ofDisk disk' cwd home dir env = .ok config' →
          config'.setting o.dottedKey = config.setting o.dottedKey) ∧
        ∀ lower' upper', HasFields disk' cwd (globalPath home env) lower' →
          HasFields disk' cwd (projectPath cwd dir) upper' →
          schema.Accepts (.record lower') → schema.Accepts (.record upper') →
          AgreeBut o lower lower' → AgreeBut o upper upper' →
          ofDisk disk' cwd home dir env = .ok config := by
  obtain ⟨lower, upper, fields, hlower, hupper, -, -, hread, haccepts, halike, hconfig⟩ :=
    exists_sources h
  have hfollows := follows_of_alike haccepts halike hconfig
  refine ⟨lower, upper, read_eq_ok_iff.1 hlower, read_eq_ok_iff.1 hupper, hread, hfollows,
    fun o ho hset disk' ↦ ⟨?_, ?_⟩⟩
  · intro config' h'
    obtain ⟨lower', upper', -, -, -, hfollows'⟩ := exists_follows h'
    exact hfollows'.setting_eq hfollows (by
      rw [given_dottedKey ho]
      exact value?_ne_none hread ho hset)
  · intro lower' upper' hlower' hupper' hlowerAccepts hupperAccepts hlowerBut hupperBut
    have hsame := resolved_alike_of_agreeBut ho (value?_ne_none hread ho hset) hlowerBut hupperBut
    rw [ofDisk_of_sources (read_eq_ok_iff.2 hlower') (read_eq_ok_iff.2 hupper') hlowerAccepts
      hupperAccepts hread haccepts fun key ↦ (halike key).trans (hsame key)]
    exact hconfig

/-- An environment that gives a package and a version. -/
def twoVariables : Environment :=
  .ofList [("RELOC_PACKAGE", "tool"), ("RELOC_API_VERSION", "2")]

/-- The configuration of a package and a version, in which every other setting has its default. -/
def ofTwoVariables : Config where
  tool := ⟨"tool", "2", "TOOL"⟩
  resourceOffset := defaultOffset
  includes := []
  systemDirs := []
  developmentDirs := []
  traceTool := none
  logLevel := .info
  debug := none
  verbose := false

theorem ofDisk_twoVariables :
    ofDisk .empty "/" "/home" "/p" twoVariables = .ok ofTwoVariables := by
  have hlower := readValid_of_not_there (not_isThere_home twoVariables rfl)
  have hupper := readValid_of_not_there not_isThere_project
  rw [ofDisk, mergedFields_of_accepted hlower hupper]
  rfl

/-- A disk with a global file and a project file. -/
def layeredDisk (global project : String) : FileSystem :=
  ⟨[(["home"], .directory false), (["home", ".reloc"], .directory false),
    (["home", ".reloc", "config.yaml"], .file global false),
    (["p"], .directory false), (["p", ".reloc"], .directory false),
    (["p", ".reloc", "config.yaml"], .file project false)]⟩

/-- A global file. -/
def globalText : String :=
  "package: base\n" ++
  "api_version: '1'\n" ++
  "resource_offset: ../share\n" ++
  "includes: [old]\n" ++
  "development_dirs: [dev]\n" ++
  "trace_tool:\n" ++
  "  env_var: TRACER\n" ++
  "  companion: tracer\n" ++
  "log_level: warn\n"

/-- What that file has. -/
def globalFields : Fields :=
  [("package", .text "base"), ("api_version", .text "1"), ("resource_offset", .text "../share"),
    ("includes", .ofTexts ["old"]), ("development_dirs", .ofTexts ["dev"]),
    ("trace_tool", .record [("env_var", .text "TRACER"), ("companion", .text "tracer")]),
    ("log_level", .text "warn")]

/-- A project file, which asks for entries to be kept or not to be kept. -/
def projectText (enabled : Bool) : String :=
  "package: tool\n" ++
  "env_prefix: MYTOOL\n" ++
  "includes: [a, /b]\n" ++
  "debug:\n" ++
  "  enabled: " ++ (if enabled then "true" else "false") ++ "\n" ++
  "  log_file: tool.log\n"

/-- What that file has. -/
def projectFields (enabled : Bool) : Fields :=
  [("package", .text "tool"), ("env_prefix", .text "MYTOOL"), ("includes", .ofTexts ["a", "/b"]),
    ("debug", .record [("enabled", .bool enabled), ("log_file", .text "tool.log")])]

/-- A project file of another package. -/
def otherText : String :=
  "package: other\n" ++
  "debug:\n" ++
  "  enabled: false\n"

/-- What that file has. -/
def otherFields : Fields :=
  [("package", .text "other"), ("debug", .record [("enabled", .bool false)])]

/-- An environment that gives a version, a list, a section and a key of each section. -/
def layeredVariables : Environment :=
  .ofList [("RELOC_API_VERSION", "2"), ("RELOC_SYSTEM_DIRS", "[\"s\"]"),
    ("RELOC_TRACE_TOOL", "\x7b\"env_var\":\"AUTOM4TE\",\"companion\":\"m4\"\x7d"),
    ("RELOC_TRACE_TOOL_COMPANION", "autom4te"), ("RELOC_DEBUG_ENABLED", " True ")]

/-- The configuration of the two files and the environment: each setting is that of the last of
them that has it. -/
def ofLayers : Config where
  tool := ⟨"tool", "2", "MYTOOL"⟩
  resourceOffset := "../share"
  includes := ["/p/a", "/b"]
  systemDirs := ["/p/s"]
  developmentDirs := ["/p/dev"]
  traceTool := some ⟨"AUTOM4TE", "autom4te"⟩
  logLevel := .warn
  debug := some ⟨true, some "tool.log"⟩
  verbose := false

/-- The configuration of the other project file and the environment. -/
def ofOther : Config :=
  { ofTwoVariables with
    tool := ⟨"other", "2", "OTHER"⟩
    systemDirs := ["/p/s"]
    traceTool := some ⟨"AUTOM4TE", "autom4te"⟩
    debug := some ⟨true, none⟩ }

section Layers

variable {global project : String} {document : Value} {fields : Fields}

/-- A configuration file that is found by three names has what its document has. -/
theorem hasFields_of_walkNames (top : String) {path text : String} (hnul : '\x00' ∉ path.toList)
    (hne : path ≠ "") (hshort : FileSystem.pathIsTooLong path = false)
    (hslash : Path.endsInSlash path = false) (hstart : FileSystem.startOf "/" path = [])
    (hnames : FileSystem.walkNames path = [top, ".reloc", "config.yaml"])
    (htop : top ≠ "." ∧ top ≠ ".." ∧ FileSystem.nameIsTooLong top = false)
    (hroot : disk.node? [] = some (.directory false))
    (houter : disk.node? [top] = some (.directory false))
    (hinner : disk.node? [top, ".reloc"] = some (.directory false))
    (hfile : disk.node? [top, ".reloc", "config.yaml"] = some (.file text false))
    (hdocument : Yaml.read text = .ok document) (hfields : documentFields? document = some fields) :
    HasFields disk "/" path fields := by
  have hsteps : disk.walkOn .followLink FileSystem.maxLinks [] [top, ".reloc", "config.yaml"] =
      .ok ([top, ".reloc", "config.yaml"], FileSystem.maxLinks) := calc
    _ = disk.walkOn .followLink FileSystem.maxLinks [top] [".reloc", "config.yaml"] :=
      FileSystem.walkOn_node hroot htop.1 htop.2.1 htop.2.2 houter fun _ h ↦ by cases h
    _ = disk.walkOn .followLink FileSystem.maxLinks [top, ".reloc"] ["config.yaml"] :=
      FileSystem.walkOn_node houter (by decide) (by decide) (by decide) hinner
        fun _ h ↦ by cases h
    _ = disk.walkOn .followLink FileSystem.maxLinks [top, ".reloc", "config.yaml"] [] :=
      FileSystem.walkOn_node hinner (by decide) (by decide) (by decide) hfile
        fun _ h ↦ by cases h
    _ = _ := by rw [FileSystem.walkOn]
  have hwalk : disk.walk "/" .followLink path = .ok [top, ".reloc", "config.yaml"] := by
    rw [FileSystem.walk_of_no_slash hne hshort hslash, hnames, hstart, hsteps]
    rfl
  have hnode : disk.nodeAt "/" .followLink path = .ok (.file text false) :=
    FileSystem.nodeAt_eq_ok_iff.2 ⟨_, hwalk, hfile⟩
  have hthere : disk.exists? "/" path = true := by
    rw [FileSystem.exists?, FileSystem.stat, hnode]
    rfl
  have htext : disk.readText "/" path = .ok text := by
    rw [FileSystem.readText, hnode]
    rfl
  exact .document ⟨hnul, hthere⟩ htext hdocument hfields

theorem hasFields_global (project : String) (hdocument : Yaml.read global = .ok document)
    (hfields : documentFields? document = some fields) :
    HasFields (layeredDisk global project) "/" (globalPath "/home" layeredVariables) fields :=
  hasFields_of_walkNames "home" (by decide) (by decide) (by decide) (by decide) (by decide)
    (by decide) (by decide) rfl rfl rfl rfl hdocument hfields

theorem hasFields_project (global : String) (hdocument : Yaml.read project = .ok document)
    (hfields : documentFields? document = some fields) :
    HasFields (layeredDisk global project) "/" (projectPath "/" "/p") fields :=
  hasFields_of_walkNames "p" (by decide) (by decide) (by decide) (by decide) (by decide)
    (by decide) (by decide) rfl rfl rfl rfl hdocument hfields

theorem read_globalText : Yaml.read globalText = .ok (.record globalFields) := by
  decide +kernel

theorem read_projectText (enabled : Bool) :
    Yaml.read (projectText enabled) = .ok (.record (projectFields enabled)) := by
  cases enabled <;> decide +kernel

theorem read_otherText : Yaml.read otherText = .ok (.record otherFields) := by
  decide +kernel

theorem validate_globalFields : validate globalFields "" = .ok globalFields := by decide +kernel

theorem validate_projectFields (enabled : Bool) :
    validate (projectFields enabled) "" = .ok (projectFields enabled) := by
  cases enabled <;> decide +kernel

theorem validate_otherFields : validate otherFields "" = .ok otherFields := by decide +kernel

/-- A file that is valid as it is. -/
theorem readValid_of_hasFields {path : String} (h : HasFields disk "/" path fields)
    (hvalid : validate fields "" = .ok fields) : readValid disk "/" path = .ok fields := by
  obtain ⟨haccepts, hdata⟩ := validate_eq_ok_iff.1 hvalid
  exact readValid_eq_ok_iff.2 ⟨fields, read_eq_ok_iff.2 h, haccepts, hdata⟩

theorem ofDisk_layers : ofDisk (layeredDisk globalText (projectText false)) "/" "/home" "/p"
    layeredVariables = .ok ofLayers := by
  have hlower := readValid_of_hasFields
    (hasFields_global (projectText false) read_globalText rfl) validate_globalFields
  have hupper := readValid_of_hasFields
    (hasFields_project globalText (read_projectText false) rfl)
    (validate_projectFields false)
  rw [ofDisk, mergedFields_of_accepted hlower hupper]
  decide +kernel

theorem ofDisk_other : ofDisk (layeredDisk "" otherText) "/" "/home" "/p" layeredVariables =
    .ok ofOther := by
  have hempty : Yaml.read "" = .ok .null := by decide +kernel
  have hlower := readValid_of_hasFields (hasFields_global otherText hempty rfl)
    (validate_eq_ok_iff.2 ⟨schema_accepts_nil, rfl⟩)
  have hupper := readValid_of_hasFields (hasFields_project "" read_otherText rfl)
    validate_otherFields
  rw [ofDisk, mergedFields_of_accepted hlower hupper]
  decide +kernel

end Layers

/-- Two files and an environment give something at different keys and at the same ones. The project
file says that no entries are to be kept, and the environment says that they are: so they are kept
in another project as well, and the same is loaded if the project file agrees. -/
theorem precedence_of_layers :
    ofDisk (layeredDisk globalText (projectText false)) "/" "/home" "/p" layeredVariables =
      .ok ofLayers ∧
    Follows "/" "/p" layeredVariables globalFields (projectFields false) ofLayers ∧
    layeredVariables "RELOC_DEBUG_ENABLED" = some " True " ∧
    (ofDisk (layeredDisk "" otherText) "/" "/home" "/p" layeredVariables = .ok ofOther ∧
      ofOther.setting "debug.enabled" = ofLayers.setting "debug.enabled") ∧
    HasFields (layeredDisk globalText (projectText true)) "/"
      (globalPath "/home" layeredVariables) globalFields ∧
    HasFields (layeredDisk globalText (projectText true)) "/"
      (projectPath "/" "/p") (projectFields true) ∧
    AgreeBut ⟨some "debug", "enabled", .truth⟩ (projectFields false) (projectFields true) ∧
    ofDisk (layeredDisk globalText (projectText true)) "/" "/home" "/p" layeredVariables =
      .ok ofLayers := by
  set enabled : Override := ⟨some "debug", "enabled", .truth⟩
  have hmem : enabled ∈ all := by decide
  have hgiven : layeredVariables enabled.variableName ≠ none := by decide
  obtain ⟨lower, upper, hlower, hupper, -, hfollows, hset⟩ := precedence ofDisk_layers
  obtain rfl := hlower.unique (hasFields_global _ read_globalText rfl)
  obtain rfl := hupper.unique (hasFields_project _ (read_projectText false) rfl)
  have hlower' := hasFields_global (projectText true) read_globalText rfl
  have hupper' := hasFields_project globalText (read_projectText true) rfl
  have hbut : AgreeBut enabled (projectFields false) (projectFields true) :=
    agreeBut_put (.bool true) (by decide)
  obtain ⟨hother, -⟩ := hset enabled hmem hgiven (layeredDisk "" otherText)
  obtain ⟨-, hsame⟩ := hset enabled hmem hgiven (layeredDisk globalText (projectText true))
  have hloaded := hsame _ _ hlower' hupper' (validate_eq_ok_iff.1 validate_globalFields).1
    (validate_eq_ok_iff.1 (validate_projectFields true)).1 (.refl enabled _) hbut
  exact ⟨ofDisk_layers, hfollows, by decide, ⟨ofDisk_other, hother _ ofDisk_other⟩, hlower',
    hupper', hbut, hloaded⟩

end Config

end ResourceLocator
