import ResourceLocator.Proofs.Config.Settings
import ResourceLocator.Proofs.Path.Location

/-!
# What every loaded configuration satisfies

Whatever is read of an accepted file is a value that the schema accepts at its key
(`Reading.accepts_of_read`). So the checks of the schema hold of the settings of a configuration
that is loaded (`isSound_of_ofDisk`), and its directories are normalized. The prefix is the one
setting whose default has not gone through a check.
-/

namespace ResourceLocator

variable {disk : FileSystem} {cwd home dir : String} {env : Environment} {fields : Fields}
  {config : Config}

namespace Config

open ConfigFile Override

/-- The settings have passed the checks of the schema, but for a prefix that comes from the
package, and the directories are normalized. -/
structure IsSound (config : Config) : Prop where
  /-- There is a package. -/
  package : config.tool.package ≠ ""
  /-- There is a version. -/
  apiVersion : config.tool.apiVersion ≠ ""
  /-- The prefix is well-formed, unless it comes from the package. -/
  envPrefix : config.tool.envPrefix = Tool.defaultPrefix config.tool.package ∨
    EnvName.isWellFormed config.tool.envPrefix = true
  /-- There is a way to the resources. -/
  resourceOffset : config.resourceOffset ≠ ""
  /-- The directories of the user layer. -/
  includes : ∀ d ∈ config.includes, Path.IsNormalized d
  /-- The directories of the system layer. -/
  systemDirs : ∀ d ∈ config.systemDirs, Path.IsNormalized d
  /-- The directories of a tool that is not installed. -/
  developmentDirs : ∀ d ∈ config.developmentDirs, Path.IsNormalized d
  /-- The variable of the companion is well-formed. -/
  traceVariable (tool : TraceTool) (h : config.traceTool = some tool) :
    EnvName.isWellFormed tool.variableName = true
  /-- The companion has a program. -/
  companion (tool : TraceTool) (h : config.traceTool = some tool) : tool.companion ≠ ""
  /-- The debug log goes to a file that has a name. -/
  logFile (journal : JournalConfig) (h : config.debug = some journal) : journal.logFile ≠ some ""

/-! ### From accepted fields -/

section Accepted

variable {α : Type} {known : Schema} {encode : α → Value} {read : Value → Option α}

/-- **What is read at a key is accepted there.** -/
theorem Reading.accepts_of_read {key : String} {isOptional : Bool}
    (h : Reading known encode read) {a : Option Value} {x : α}
    (ha : (Schema.Field.mk key known isOptional).whole.Accepts (a.getD .undefined))
    (hx : a.bind read = some x) : known.Accepts (encode x) := by
  obtain ⟨v, rfl, hv⟩ := Option.bind_eq_some_iff.1 hx
  rcases Schema.Field.whole_accepts_iff.1 ha with ⟨-, habsent⟩ | haccepts
  · obtain rfl : v = .undefined := habsent
    rw [h.read_undefined] at hv
    cases hv
  · obtain ⟨y, rfl⟩ := h.exists_encode haccepts
    rw [h.read_encode] at hv
    rwa [← Option.some.inj hv]

theorem nonempty_accepts_text {s : String} : Schema.nonempty.Accepts (.text s) ↔ s ≠ "" := by
  rw [Schema.nonempty_accepts_iff]
  exact ⟨fun ⟨_, h, hne⟩ ↦ Value.text.inj h ▸ hne, fun hne ↦ ⟨s, rfl, hne⟩⟩

theorem form_accepts_text {ok : String → Bool} {message s : String} :
    (Schema.form ok message).Accepts (.text s) ↔ ok s = true := by
  rw [Schema.form_accepts_iff]
  exact ⟨fun ⟨_, h, hok⟩ ↦ Value.text.inj h ▸ hok, fun hok ↦ ⟨s, rfl, hok⟩⟩

/-- What an accepted file has at the key of a field is accepted there. -/
theorem whole_accepts_of_mem (haccepts : schema.Accepts (.record fields)) {field : Schema.Field}
    (hfield : field ∈ knownFields) :
    field.whole.Accepts ((Fields.get? fields field.key).getD .undefined) := by
  obtain ⟨_, hfields, -, hat⟩ := Schema.record_accepts_iff.1 haccepts
  obtain rfl := Option.some.inj hfields
  exact hat field hfield

/-- The fields of an accepted section, if it is read as one. -/
theorem exists_section (haccepts : schema.Accepts (.record fields)) {name : String}
    {inside : List Schema.Field} (hfield : ⟨name, Schema.record inside, true⟩ ∈ knownFields)
    {inner : Fields} (hinner : (Fields.get? fields name).bind Value.fields? = some inner) :
    ∀ field ∈ inside, field.whole.Accepts ((Fields.get? inner field.key).getD .undefined) := by
  have hwhole := whole_accepts_of_mem haccepts hfield
  obtain ⟨v, hv, hreads⟩ := Option.bind_eq_some_iff.1 hinner
  rw [hv, Option.getD_some] at hwhole
  rcases Schema.Field.whole_accepts_iff.1 hwhole with ⟨-, habsent⟩ | hrecord
  · obtain rfl : v = .undefined := habsent
    cases hreads
  · obtain ⟨_, hfields, -, hat⟩ := Schema.record_accepts_iff.1 hrecord
    obtain rfl := Option.some.inj (hreads.symm.trans hfields)
    exact hat

/-- A prefix that is given is well-formed. -/
theorem isWellFormed_of_envPrefix (haccepts : schema.Accepts (.record fields)) {s : String}
    (hgiven : (ofFields fields).envPrefix = some s) : EnvName.isWellFormed s = true := by
  have hfield := whole_accepts_of_mem haccepts (.tail _ (.tail _ (.head _)))
  exact form_accepts_text.1 ((form_reading _ _).accepts_of_read hfield hgiven)

theorem companion_isSound (haccepts : schema.Accepts (.record fields)) {tool : TraceTool}
    (htool : (ofFields fields).traceTool = some tool) :
    EnvName.isWellFormed tool.variableName = true ∧ tool.companion ≠ "" := by
  have hbind : (Fields.get? fields "trace_tool").bind asTraceTool = some tool := htool
  rw [bind_asTraceTool] at hbind
  obtain ⟨inner, hinner, hbind⟩ := Option.bind_eq_some_iff.1 hbind
  obtain ⟨variableName, hvariable, hbind⟩ := Option.bind_eq_some_iff.1 hbind
  obtain ⟨companion, hcompanion, rfl⟩ := Option.map_eq_some_iff.1 hbind
  have hfield : ⟨"trace_tool", Schema.record traceToolFields, true⟩ ∈ knownFields := by
    simp [knownFields, traceToolSchema]
  have hat := exists_section haccepts hfield hinner
  simp only [traceToolFields, List.forall_mem_cons] at hat
  exact ⟨form_accepts_text.1 ((form_reading _ _).accepts_of_read hat.1 hvariable),
    nonempty_accepts_text.1 (nonempty_reading.accepts_of_read hat.2.1 hcompanion)⟩

theorem logFile_isSound (haccepts : schema.Accepts (.record fields)) {debug : DebugSection}
    (hdebug : (ofFields fields).debug = some debug) : debug.logFile ≠ some "" := by
  have hbind : (Fields.get? fields "debug").bind asDebug = some debug := hdebug
  rw [bind_asDebug] at hbind
  obtain ⟨inner, hinner, rfl⟩ := Option.map_eq_some_iff.1 hbind
  have hfield : ⟨"debug", Schema.record debugFields, true⟩ ∈ knownFields := by
    simp [knownFields, debugSchema]
  have hat := exists_section haccepts hfield hinner
  simp only [debugFields, List.forall_mem_cons] at hat
  intro hfile
  exact nonempty_accepts_text.1 (nonempty_reading.accepts_of_read hat.2.1 hfile) rfl

/-- **What is made of an accepted file is sound.** -/
theorem isSound_of_accepts (haccepts : schema.Accepts (.record fields))
    (hconfig : ofFile cwd dir (ofFields fields) = .ok config) : IsSound config := by
  obtain ⟨package, apiVersion, hpackage, hversion, rfl⟩ := ofFile_eq_ok_iff.1 hconfig
  have htext : ∀ key s, ⟨key, Schema.nonempty, true⟩ ∈ knownFields →
      (Fields.get? fields key).bind asText = some s → s ≠ "" := fun key s hfield hs ↦
    nonempty_accepts_text.1
      (nonempty_reading.accepts_of_read (whole_accepts_of_mem haccepts hfield) hs)
  have hdirs : ∀ dirs : List String, ∀ d ∈ dirs.map fun d ↦ Path.resolve cwd [dir, d],
      Path.IsNormalized d := by
    intro dirs d hd
    obtain ⟨text, -, rfl⟩ := List.mem_map.1 hd
    exact Path.isNormalized_resolve _ _
  exact {
    package := htext "package" package (by simp [knownFields]) hpackage
    apiVersion := htext "api_version" apiVersion (by simp [knownFields]) hversion
    envPrefix := by
      cases hprefix : (ofFields fields).envPrefix with
      | none => exact .inl rfl
      | some s => exact .inr (isWellFormed_of_envPrefix haccepts hprefix)
    resourceOffset := by
      cases hoffset : (ofFields fields).resourceOffset with
      | none => exact (by decide : defaultOffset ≠ "")
      | some s => exact htext "resource_offset" s (by simp [knownFields]) hoffset
    includes := hdirs _
    systemDirs := hdirs _
    developmentDirs := hdirs _
    traceVariable := fun tool htool ↦ (companion_isSound haccepts htool).1
    companion := fun tool htool ↦ (companion_isSound haccepts htool).2
    logFile := fun journal hjournal ↦ by
      obtain ⟨debug, hdebug, rfl⟩ := Option.map_eq_some_iff.1 hjournal
      exact logFile_isSound haccepts hdebug }

end Accepted

/-- **Every configuration that is loaded is sound.** -/
theorem isSound_of_ofDisk (h : ofDisk disk cwd home dir env = .ok config) : IsSound config := by
  obtain ⟨lower, upper, fields, -, -, -, -, -, haccepts, -, hconfig⟩ := exists_sources h
  exact isSound_of_accepts haccepts hconfig

end Config

end ResourceLocator
