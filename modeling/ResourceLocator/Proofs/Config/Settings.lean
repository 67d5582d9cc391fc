import ResourceLocator.Proofs.Config.Sources

/-!
# Each setting follows its sources

A configuration *follows* its sources if each setting is read of what counts at its key, or has its
default if nothing counts there (`Config.Follows`). What counts at a key determines the setting
(`Sets.unique`), because accepted values are read in one way only (`Reading`).

What is made of accepted fields follows all sources that the fields are alike to
(`follows_of_alike`).
-/

namespace ResourceLocator

variable {cwd dir : String} {env : Environment}
  {lower upper : Fields} {config : Config}

namespace Config

open ConfigFile Override

/-! ### What is read of what counts -/

/-- What is read of a value that may be absent: what it is a value of, or nothing. -/
inductive Reads {α : Type} (encode : α → Value) : Option Value → Option α → Prop where
  /-- The value is read. -/
  | value (a : α) : Reads encode (some (encode a)) (some a)
  /-- There is nothing to read. -/
  | absent {v : Option Value} (h : v.getD .undefined = .undefined) : Reads encode v none

theorem Reads.eq_some {α : Type} {encode : α → Value} {v : Option Value} {x : Option α} {a : α}
    (h : Reads encode v x) (hx : x = some a) : v = some (encode a) := by
  cases h with
  | value b => rw [Option.some.inj hx]
  | absent => cases hx

theorem Reads.getD_eq_undefined {α : Type} {encode : α → Value} {v : Option Value} {x : Option α}
    (h : Reads encode v x) (hx : x = none) : v.getD .undefined = .undefined := by
  cases h with
  | value b => cases hx
  | absent h => exact h

/-- How the values that a schema accepts are read. -/
structure Reading {α : Type} (known : Schema) (encode : α → Value) (read : Value → Option α) :
    Prop where
  /-- Accepted values are values of something. -/
  exists_encode {v : Value} (h : known.Accepts v) : ∃ a, v = encode a
  /-- What is read of a value is what it is a value of. -/
  read_encode (a : α) : read (encode a) = some a
  /-- Nothing is read of what is absent. -/
  read_undefined : read .undefined = none
  /-- Accepted values do not read as records. -/
  fields?_encode (a : α) : (encode a).fields? = none

section Reading

variable {α : Type} {known : Schema} {encode : α → Value} {read : Value → Option α}
  {a b : Option Value}

/-- **What is read of accepted fields is what counts.** -/
theorem Reading.reads (h : Reading known encode read) (hab : Value.AlikeOption a b)
    (ha : a.getD .undefined = .undefined ∨ ∃ v, a = some v ∧ known.Accepts v) :
    Reads encode b (a.bind read) := by
  rcases ha with habsent | ⟨v, rfl, hv⟩
  · have hnone : a.bind read = none := by
      cases a with
      | none => rfl
      | some v =>
        obtain rfl : v = .undefined := habsent
        exact h.read_undefined
    rw [hnone]
    exact .absent (hab.getD_eq_undefined habsent)
  · obtain ⟨x, rfl⟩ := h.exists_encode hv
    rw [hab.eq_some rfl (h.fields?_encode x), Option.bind_some, h.read_encode]
    exact .value x

/-- One value is read in one way. -/
theorem Reading.eq_of_reads (h : Reading known encode read) {x y : Option α}
    (hx : Reads encode a x) (hy : Reads encode a y) : x = y := by
  have hread : ∀ {z : Option α}, Reads encode a z → a.bind read = z := by
    rintro z (⟨a⟩ | habsent)
    · exact h.read_encode a
    · cases a with
      | none => rfl
      | some v =>
        obtain rfl : v = .undefined := habsent
        exact h.read_undefined
  rw [← hread hx, hread hy]

theorem nonempty_reading : Reading Schema.nonempty .text asText where
  exists_encode h := by
    obtain ⟨s, rfl, -⟩ := Schema.nonempty_accepts_iff.1 h
    exact ⟨s, rfl⟩
  read_encode _ := rfl
  read_undefined := rfl
  fields?_encode _ := rfl

theorem form_reading (ok : String → Bool) (message : String) :
    Reading (Schema.form ok message) .text asText where
  exists_encode h := by
    obtain ⟨s, rfl, -⟩ := Schema.form_accepts_iff.1 h
    exact ⟨s, rfl⟩
  read_encode _ := rfl
  read_undefined := rfl
  fields?_encode _ := rfl

theorem bool_reading : Reading Schema.bool .bool asBool where
  exists_encode h := Schema.bool_accepts_iff.1 h
  read_encode _ := rfl
  read_undefined := rfl
  fields?_encode _ := rfl

theorem dirs_reading : Reading dirsSchema Value.ofTexts asTexts where
  exists_encode h := by
    obtain ⟨items, rfl, hitems⟩ := Schema.listOf_accepts_iff.1 h
    refine ⟨items.filterMap asText, congrArg Value.list ?_⟩
    clear h
    induction items with
    | nil => rfl
    | cons item items ih =>
      rw [List.forall_mem_cons] at hitems
      obtain ⟨s, rfl, -⟩ := Schema.nonempty_accepts_iff.1 hitems.1
      exact congrArg (Value.text s :: ·) (ih hitems.2)
  read_encode texts := by
    induction texts with
    | nil => rfl
    | cons s texts ih => exact congrArg (·.map (s :: ·)) ih
  read_undefined := rfl
  fields?_encode _ := rfl

theorem level_reading : Reading logLevelSchema (fun level : Level ↦ .text level.name)
    fun v ↦ (asText v).bind Level.ofName? where
  exists_encode h := by
    obtain ⟨s, hs, rfl⟩ := Schema.oneOf_accepts_iff.1 h
    obtain ⟨level, -, rfl⟩ := List.mem_map.1 hs
    exact ⟨level, rfl⟩
  read_encode level := Level.ofName?_name level
  read_undefined := rfl
  fields?_encode _ := rfl

end Reading

/-! ### Following the sources -/

/-- A setting is what is read of what counts at its key, or else its default. -/
def Sets {α : Type} (encode : α → Value) (default : α) (v : Option Value) (a : α) : Prop :=
  ∃ x, Reads encode v x ∧ a = x.getD default

/-- A list of directories is read of what counts at its key, each from the directory of the project;
if nothing counts there is none. -/
def SetsDirs (cwd dir : String) (v : Option Value) (dirs : List String) : Prop :=
  ∃ texts, Sets Value.ofTexts [] v texts ∧ dirs = texts.map fun text ↦ Path.resolve cwd [dir, text]

theorem Sets.unique {α : Type} {known : Schema} {encode : α → Value} {read : Value → Option α}
    {default a b : α} {v : Option Value} (h : Reading known encode read)
    (ha : Sets encode default v a) (hb : Sets encode default v b) : a = b := by
  obtain ⟨x, hx, rfl⟩ := ha
  obtain ⟨y, hy, rfl⟩ := hb
  rw [h.eq_of_reads hx hy]

theorem SetsDirs.unique {v : Option Value} {dirs dirs' : List String}
    (h : SetsDirs cwd dir v dirs) (h' : SetsDirs cwd dir v dirs') : dirs = dirs' := by
  obtain ⟨texts, htexts, rfl⟩ := h
  obtain ⟨texts', htexts', rfl⟩ := h'
  rw [htexts.unique dirs_reading htexts']

/-- **Each setting follows its sources.** -/
structure Follows (cwd dir : String) (env : Environment) (lower upper : Fields) (config : Config) :
    Prop where
  /-- The package has no default. -/
  package : picked env lower upper "package" = some (.text config.tool.package)
  /-- The version has no default. -/
  apiVersion : picked env lower upper "api_version" = some (.text config.tool.apiVersion)
  /-- The default of the prefix comes from the package. -/
  envPrefix : Sets .text (Tool.defaultPrefix config.tool.package)
    (picked env lower upper "env_prefix")
    config.tool.envPrefix
  /-- The way to the resources. -/
  resourceOffset : Sets .text defaultOffset (picked env lower upper "resource_offset")
    config.resourceOffset
  /-- The directories of the user layer. -/
  includes : SetsDirs cwd dir (picked env lower upper "includes") config.includes
  /-- The directories of the system layer. -/
  systemDirs : SetsDirs cwd dir (picked env lower upper "system_dirs") config.systemDirs
  /-- The directories of a tool that is not installed. -/
  developmentDirs : SetsDirs cwd dir (picked env lower upper "development_dirs")
    config.developmentDirs
  /-- There is a companion if the section is there. -/
  traceTool_eq_none_iff : config.traceTool = none ↔ IsAbsent env lower upper "trace_tool"
  /-- Both keys of the companion follow their sources. -/
  traceTool (tool : TraceTool) (h : config.traceTool = some tool) :
    pickedIn env lower upper "trace_tool" "env_var" = some (.text tool.variableName) ∧
      pickedIn env lower upper "trace_tool" "companion" = some (.text tool.companion)
  /-- The threshold of the console log. -/
  logLevel : Sets (fun level : Level ↦ .text level.name) .info (picked env lower upper "log_level")
    config.logLevel
  /-- The debug log is spoken of if the section is there. -/
  debug_eq_none_iff : config.debug = none ↔ IsAbsent env lower upper "debug"
  /-- Both keys of the debug log follow their sources. -/
  debug (journal : JournalConfig) (h : config.debug = some journal) :
    Sets .bool false (pickedIn env lower upper "debug" "enabled") journal.enabled ∧
      Reads .text (pickedIn env lower upper "debug" "log_file") journal.logFile
  /-- Whether everything is logged and shown. -/
  verbose : Sets .bool false (picked env lower upper "verbose") config.verbose

/-- What is made of a file. -/
theorem ofFile_eq_ok_iff {file : ConfigFile} : ofFile cwd dir file = .ok config ↔
    ∃ package apiVersion, file.package = some package ∧ file.apiVersion = some apiVersion ∧
      config = {
        tool := ⟨package, apiVersion, file.envPrefix.getD (Tool.defaultPrefix package)⟩
        resourceOffset := file.resourceOffset.getD defaultOffset
        includes := (file.includes.getD []).map fun d ↦ Path.resolve cwd [dir, d]
        systemDirs := (file.systemDirs.getD []).map fun d ↦ Path.resolve cwd [dir, d]
        developmentDirs := (file.developmentDirs.getD []).map fun d ↦ Path.resolve cwd [dir, d]
        traceTool := file.traceTool
        logLevel := file.logLevel.getD .info
        debug := file.debug.map fun d ↦ ⟨d.enabled.getD false, d.logFile⟩
        verbose := file.verbose.getD false } := by
  unfold ofFile
  cases file.package with
  | none => simp [throw, throwThe, MonadExceptOf.throw]
  | some package => cases file.apiVersion with
    | none => simp [throw, throwThe, MonadExceptOf.throw]
    | some apiVersion => simp [pure, Except.pure, eq_comm]

section Loaded

variable {fields : Fields}

/-- A key is plain if an override is for the whole of it and none is for a part. -/
def IsPlain (key : String) : Prop :=
  ∃ o ∈ all, o.inSection = none ∧ o.key = key ∧
    (all.filter fun other ↦ other.inSection = some o.key) = []

/-- A key is a section if an override is for the whole of it. -/
def IsSection (name : String) : Prop := ∃ o ∈ all, o.inSection = none ∧ o.key = name

instance (key : String) : Decidable (IsPlain key) :=
  inferInstanceAs (Decidable (∃ o ∈ all, _))

instance (name : String) : Decidable (IsSection name) :=
  inferInstanceAs (Decidable (∃ o ∈ all, _))

/-- At a plain key, what is read is what counts there. -/
theorem reads_picked {α : Type} {known : Schema} {encode : α → Value} {read : Value → Option α}
    {key : String} (h : Reading known encode read) (haccepts : schema.Accepts (.record fields))
    (halike : ∀ key, Value.AlikeOption (Fields.get? fields key) (resolved env lower upper key))
    (hfield : ⟨key, known, true⟩ ∈ knownFields) (hkey : IsPlain key) :
    Reads encode (picked env lower upper key) ((Fields.get? fields key).bind read) := by
  obtain ⟨o, ho, hwhole, rfl, hplain⟩ := hkey
  have hat := halike o.key
  rw [resolved_eq_picked ho hwhole hplain] at hat
  exact h.reads hat (accepts_at haccepts hfield)

/-- **A section is absent, or its keys follow their sources.** -/
theorem section_cases (name : String) (known : List Schema.Field)
    (haccepts : schema.Accepts (.record fields))
    (halike : ∀ key, Value.AlikeOption (Fields.get? fields key) (resolved env lower upper key))
    (hfield : ⟨name, Schema.record known, true⟩ ∈ knownFields) (hname : IsSection name) :
    IsAbsent env lower upper name ∧ (Fields.get? fields name).bind Value.fields? = none ∨
    ¬IsAbsent env lower upper name ∧
      ∃ inner, (Fields.get? fields name).bind Value.fields? = some inner ∧
        (∀ field ∈ known,
          field.whole.Accepts ((Fields.get? inner field.key).getD .undefined)) ∧
        ∀ leaf ∈ all, leaf.inSection = some name →
          Value.AlikeOption (Fields.get? inner leaf.key)
            (pickedIn env lower upper name leaf.key) := by
  obtain ⟨o, ho, hwhole, rfl⟩ := hname
  have hat := halike o.key
  rw [← resolved_eq_undefined_iff ho hwhole]
  rcases accepts_at haccepts hfield with habsent | ⟨v, hv, haccepts⟩
  · refine .inl ⟨hat.getD_eq_undefined habsent, ?_⟩
    cases hget : Fields.get? fields o.key with
    | none => rfl
    | some v =>
      rw [hget] at habsent
      obtain rfl : v = .undefined := habsent
      rfl
  · obtain ⟨inner, hinner, -, hfields⟩ := Schema.record_accepts_iff.1 haccepts
    have hbind : (Fields.get? fields o.key).bind Value.fields? = some inner := by
      rw [hv, Option.bind_some, hinner]
    refine .inr ⟨fun habsent ↦ ?_, inner, hbind, hfields, fun leaf hleaf hsection ↦ ?_⟩
    · have hundefined := hat.symm.getD_eq_undefined habsent
      rw [hv] at hundefined
      obtain rfl : v = .undefined := hundefined
      cases hinner
    -- What the schema has accepted at a key of the section is alike to what counts there.
    · have hleafAt := hat.at? leaf.key
      rw [at?_resolved ho hwhole hleaf hsection, Value.at?, hbind] at hleafAt
      exact hleafAt

/-- What is read at a key that has to be there. -/
theorem Reading.exists_of_required {α : Type} {key : String} {known : Schema} {encode : α → Value}
    {read : Value → Option α} (h : Reading known encode read) {a b : Option Value}
    (hab : Value.AlikeOption a b)
    (ha : (Schema.Field.mk key known false).whole.Accepts (a.getD .undefined)) :
    ∃ x, a.bind read = some x ∧ b = some (encode x) := by
  have haccepts : known.Accepts (a.getD .undefined) := by
    rcases Schema.Field.whole_accepts_iff.1 ha with ⟨hoptional, -⟩ | haccepts
    · cases hoptional
    · exact haccepts
  obtain ⟨x, hx⟩ := h.exists_encode haccepts
  cases a with
  | none =>
    -- What is absent is read as nothing, and every accepted value is read.
    have hread := h.read_encode x
    rw [← hx, Option.getD_none, h.read_undefined] at hread
    cases hread
  | some v =>
    obtain rfl : v = encode x := hx
    exact ⟨x, by rw [Option.bind_some, h.read_encode], hab.eq_some rfl (h.fields?_encode x)⟩

/-- What is read at a key that may be left out. -/
theorem Reading.reads_of_whole {α : Type} {key : String} {known : Schema} {encode : α → Value}
    {read : Value → Option α} (h : Reading known encode read) {a b : Option Value}
    (hab : Value.AlikeOption a b)
    (ha : (Schema.Field.mk key known true).whole.Accepts (a.getD .undefined)) :
    Reads encode b (a.bind read) := by
  refine h.reads hab ?_
  rcases Schema.Field.whole_accepts_iff.1 ha with ⟨-, habsent⟩ | haccepts
  · exact .inl habsent
  · cases a with
    | none => exact .inl rfl
    | some v => exact .inr ⟨v, rfl, haccepts⟩

theorem bind_asTraceTool (v : Option Value) : v.bind asTraceTool =
    (v.bind Value.fields?).bind fun inner ↦
      ((Fields.get? inner "env_var").bind asText).bind fun variableName ↦
        ((Fields.get? inner "companion").bind asText).map fun companion ↦
          ⟨variableName, companion⟩ := by
  cases v with
  | none => rfl
  | some v => simp only [Option.bind_some, asTraceTool, Option.map_eq_bind]; rfl

theorem bind_asDebug (v : Option Value) : v.bind asDebug =
    (v.bind Value.fields?).map fun inner ↦
      ⟨(Fields.get? inner "enabled").bind asBool, (Fields.get? inner "log_file").bind asText⟩ := by
  cases v <;> rfl

/-- **The section on the companion** follows its sources. -/
theorem traceTool_follows (haccepts : schema.Accepts (.record fields))
    (halike : ∀ key, Value.AlikeOption (Fields.get? fields key) (resolved env lower upper key)) :
    ((ofFields fields).traceTool = none ↔ IsAbsent env lower upper "trace_tool") ∧
    ∀ tool, (ofFields fields).traceTool = some tool →
      pickedIn env lower upper "trace_tool" "env_var" = some (.text tool.variableName) ∧
        pickedIn env lower upper "trace_tool" "companion" = some (.text tool.companion) := by
  have htool : (ofFields fields).traceTool =
      (Fields.get? fields "trace_tool").bind asTraceTool := rfl
  rw [htool, bind_asTraceTool]
  rcases section_cases "trace_tool" traceToolFields haccepts halike
      (by simp [knownFields, traceToolSchema]) (by decide) with
    ⟨habsent, hnone⟩ | ⟨hthere, inner, hinner, hfields, hleaves⟩
  · rw [hnone]
    exact ⟨iff_of_true rfl habsent, fun tool h ↦ by cases h⟩
  · simp only [traceToolFields, List.forall_mem_cons] at hfields
    obtain ⟨variableName, hvariable, hvariablePicked⟩ := (form_reading _ _).exists_of_required
      (hleaves ⟨some "trace_tool", "env_var", .text⟩ (by decide) rfl) hfields.1
    obtain ⟨companion, hcompanion, hcompanionPicked⟩ := nonempty_reading.exists_of_required
      (hleaves ⟨some "trace_tool", "companion", .text⟩ (by decide) rfl) hfields.2.1
    rw [hinner, Option.bind_some, hvariable, Option.bind_some, hcompanion, Option.map_some]
    refine ⟨iff_of_false (Option.some_ne_none _) hthere, fun tool htool ↦ ?_⟩
    obtain rfl := Option.some.inj htool
    exact ⟨hvariablePicked, hcompanionPicked⟩

/-- **The section on the debug log** follows its sources. -/
theorem debug_follows (haccepts : schema.Accepts (.record fields))
    (halike : ∀ key, Value.AlikeOption (Fields.get? fields key) (resolved env lower upper key)) :
    ((ofFields fields).debug = none ↔ IsAbsent env lower upper "debug") ∧
    ∀ debug, (ofFields fields).debug = some debug →
      Reads .bool (pickedIn env lower upper "debug" "enabled") debug.enabled ∧
        Reads .text (pickedIn env lower upper "debug" "log_file") debug.logFile := by
  have hdebug : (ofFields fields).debug = (Fields.get? fields "debug").bind asDebug := rfl
  rw [hdebug, bind_asDebug]
  rcases section_cases "debug" debugFields haccepts halike
      (by simp [knownFields, debugSchema]) (by decide) with
    ⟨habsent, hnone⟩ | ⟨hthere, inner, hinner, hfields, hleaves⟩
  · rw [hnone]
    exact ⟨iff_of_true rfl habsent, fun debug h ↦ by cases h⟩
  · simp only [debugFields, List.forall_mem_cons] at hfields
    have henabled := bool_reading.reads_of_whole
      (hleaves ⟨some "debug", "enabled", .truth⟩ (by decide) rfl) hfields.1
    have hfile := nonempty_reading.reads_of_whole
      (hleaves ⟨some "debug", "log_file", .text⟩ (by decide) rfl) hfields.2.1
    rw [hinner, Option.map_some]
    refine ⟨iff_of_false (Option.some_ne_none _) hthere, fun debug hdebug ↦ ?_⟩
    obtain rfl := Option.some.inj hdebug
    exact ⟨henabled, hfile⟩

/-- **What is made of accepted fields follows** what the fields are alike to. -/
theorem follows_of_alike (haccepts : schema.Accepts (.record fields))
    (halike : ∀ key, Value.AlikeOption (Fields.get? fields key) (resolved env lower upper key))
    (hconfig : ofFile cwd dir (ofFields fields) = .ok config) :
    Follows cwd dir env lower upper config := by
  obtain ⟨package, apiVersion, hpackage, hversion, rfl⟩ := ofFile_eq_ok_iff.1 hconfig
  have hdirs : ∀ key, ⟨key, dirsSchema, true⟩ ∈ knownFields → IsPlain key →
      SetsDirs cwd dir (picked env lower upper key)
        ((((Fields.get? fields key).bind asTexts).getD []).map fun d ↦ Path.resolve cwd [dir, d]) :=
    fun key hfield hkey ↦
      ⟨_, ⟨_, reads_picked dirs_reading haccepts halike hfield hkey, rfl⟩, rfl⟩
  have hrequired : ∀ key s, ⟨key, Schema.nonempty, true⟩ ∈ knownFields → IsPlain key →
      (Fields.get? fields key).bind asText = some s →
      picked env lower upper key = some (.text s) := by
    intro key s hfield hkey hs
    exact (reads_picked nonempty_reading haccepts halike hfield hkey).eq_some hs
  obtain ⟨htraceNone, htrace⟩ := traceTool_follows haccepts halike
  obtain ⟨hdebugNone, hdebug⟩ := debug_follows haccepts halike
  exact {
    package := hrequired _ _ (by simp [knownFields]) (by decide) hpackage
    apiVersion := hrequired _ _ (by simp [knownFields]) (by decide) hversion
    envPrefix := ⟨_, reads_picked (form_reading _ _) haccepts halike (.tail _ (.tail _ (.head _)))
      (by decide), rfl⟩
    resourceOffset := ⟨_, reads_picked nonempty_reading haccepts halike (by simp [knownFields])
      (by decide), rfl⟩
    includes := hdirs _ (by simp [knownFields]) (by decide)
    systemDirs := hdirs _ (by simp [knownFields]) (by decide)
    developmentDirs := hdirs _ (by simp [knownFields]) (by decide)
    traceTool_eq_none_iff := htraceNone
    traceTool := htrace
    logLevel := ⟨_, reads_picked level_reading haccepts halike (by simp [knownFields]) (by decide),
      by rw [← Option.bind_assoc]; rfl⟩
    debug_eq_none_iff := by rw [Option.map_eq_none_iff, hdebugNone]
    debug := fun journal hjournal ↦ by
      obtain ⟨debug, hsome, rfl⟩ := Option.map_eq_some_iff.1 hjournal
      exact ⟨⟨_, (hdebug debug hsome).1, rfl⟩, (hdebug debug hsome).2⟩
    verbose := ⟨_, reads_picked bool_reading haccepts halike (by simp [knownFields]) (by decide),
      rfl⟩ }

end Loaded

end Config

end ResourceLocator
