import ResourceLocator.Config.File
import ResourceLocator.Proofs.Value.Schema

/-!
# Accepted configuration files

The schema of a configuration file reads key by key, and so do its two sections. What
`ConfigFile.validate` makes of fields is therefore alike to them, and taking apart the one gives the
same as taking apart the other (`ofFields_dataOf`).

Validation ends in one of three ways (`validate_of_accepts`, `validate_of_not_accepts`). It has no
verdict if a text that should not be empty is asked for at a place where something cannot be
measured; `IsMeasured` says which places those are.
-/

namespace ResourceLocator.ConfigFile

open Schema

variable {f g fields : Fields}

/-! ### The schema -/

theorem nodup_debugFields : (debugFields.map (·.key)).Nodup := by decide

theorem nodup_traceToolFields : (traceToolFields.map (·.key)).Nodup := by decide

theorem nodup_knownFields : (knownFields.map (·.key)).Nodup := by decide

theorem debugSchema_readsByKey : ReadsByKey debugSchema := by
  refine record_readsByKey nodup_debugFields ?_
  simp only [debugFields, List.forall_mem_cons]
  exact ⟨bool_readsByKey, nonempty_readsByKey, fun _ h ↦ absurd h List.not_mem_nil⟩

theorem traceToolSchema_readsByKey : ReadsByKey traceToolSchema := by
  refine record_readsByKey nodup_traceToolFields ?_
  simp only [traceToolFields, List.forall_mem_cons]
  exact ⟨form_readsByKey _ _, nonempty_readsByKey, fun _ h ↦ absurd h List.not_mem_nil⟩

theorem dirsSchema_readsByKey : ReadsByKey dirsSchema := listOf_readsByKey nonempty_keeps

theorem readsByKey_of_mem_knownFields : ∀ field ∈ knownFields, ReadsByKey field.schema := by
  simp only [knownFields, List.forall_mem_cons]
  exact ⟨nonempty_readsByKey, nonempty_readsByKey, form_readsByKey _ _, nonempty_readsByKey,
    dirsSchema_readsByKey, dirsSchema_readsByKey, dirsSchema_readsByKey, traceToolSchema_readsByKey,
    oneOf_readsByKey _, debugSchema_readsByKey, bool_readsByKey,
    fun _ h ↦ absurd h List.not_mem_nil⟩

theorem schema_readsByKey : ReadsByKey schema :=
  record_readsByKey nodup_knownFields readsByKey_of_mem_knownFields

/-- All keys of a file may be left out. -/
theorem isOptional_of_mem_knownFields : ∀ field ∈ knownFields, field.isOptional = true := by
  simp [knownFields]

theorem schema_accepts_nil : schema.Accepts (.record []) :=
  record_accepts_iff.2 ⟨[], rfl, fun _ h ↦ absurd h List.not_mem_nil, fun field hfield ↦
    Field.whole_accepts_iff.2 (.inl ⟨isOptional_of_mem_knownFields field hfield, rfl⟩)⟩

/-- **What an accepted file has at a key**: nothing, or something that is accepted there. -/
theorem accepts_at {key : String} {known : Schema} (h : schema.Accepts (.record fields))
    (hfield : ⟨key, known, true⟩ ∈ knownFields) :
    (Fields.get? fields key).getD .undefined = .undefined ∨
      ∃ v, Fields.get? fields key = some v ∧ known.Accepts v := by
  obtain ⟨_, hfields, -, hat⟩ := record_accepts_iff.1 h
  obtain rfl := Option.some.inj hfields
  have hkey := hat _ hfield
  rw [Field.whole_accepts_iff] at hkey
  rcases hkey with ⟨-, habsent⟩ | hkey
  · exact .inl habsent
  · cases hget : Fields.get? _ key with
    | none => exact .inl rfl
    | some v =>
      rw [hget] at hkey
      exact .inr ⟨v, rfl, hkey⟩

/-! ### Taking a file apart -/

theorem bind_eq_of_alike {α : Type} {read : Value → Option α} {a b : Option Value}
    (hread : ∀ v w, v.Alike w → read v = read w) (h : Value.AlikeOption a b) :
    a.bind read = b.bind read := by
  cases h with
  | none => rfl
  | some h => exact hread _ _ h

/-- A reading that gives nothing of records is the same of alike values. -/
theorem eq_of_alike_of_records {α : Type} {read : Value → Option α} {v w : Value}
    (hread : ∀ v f, v.fields? = some f → read v = none) (h : v.Alike w) : read v = read w := by
  cases h with
  | same => rfl
  | records hv hw => rw [hread _ _ hv, hread _ _ hw]

theorem asText_of_fields? {v : Value} (h : v.fields? = some f) : asText v = none := by
  cases v with
  | text => cases h
  | _ => rfl

theorem asBool_of_fields? {v : Value} (h : v.fields? = some f) : asBool v = none := by
  cases v with
  | bool => cases h
  | _ => rfl

theorem asTexts_of_fields? {v : Value} (h : v.fields? = some f) : asTexts v = none := by
  cases v with
  | list => cases h
  | _ => rfl

/-- A reading of the fields of a record is the same of alike values if it is the same of fields that
have alike values at each key. -/
theorem bind_fields?_eq_of_alike {α : Type} {read : Fields → Option α} {v w : Value}
    (hread : ∀ f g, (∀ key, Value.AlikeOption (Fields.get? f key) (Fields.get? g key)) →
      read f = read g) (h : v.Alike w) : v.fields?.bind read = w.fields?.bind read := by
  cases hv : v.fields? with
  | none => rw [h.eq_of_fields?_eq_none hv] at hv; rw [hv]
  | some f =>
    obtain ⟨g, hg⟩ := h.exists_fields? hv
    rw [hg]
    exact hread f g (h.get? hv hg)

theorem asText_eq_of_alike (v w : Value) (h : v.Alike w) : asText v = asText w :=
  eq_of_alike_of_records (fun _ _ ↦ asText_of_fields?) h

theorem asBool_eq_of_alike (v w : Value) (h : v.Alike w) : asBool v = asBool w :=
  eq_of_alike_of_records (fun _ _ ↦ asBool_of_fields?) h

theorem asTexts_eq_of_alike (v w : Value) (h : v.Alike w) : asTexts v = asTexts w :=
  eq_of_alike_of_records (fun _ _ ↦ asTexts_of_fields?) h

theorem asTraceTool_eq_of_alike (v w : Value) (h : v.Alike w) : asTraceTool v = asTraceTool w := by
  refine bind_fields?_eq_of_alike (fun f g hfg ↦ ?_) h
  rw [bind_eq_of_alike asText_eq_of_alike (hfg "env_var"),
    bind_eq_of_alike asText_eq_of_alike (hfg "companion")]

theorem asDebug_eq_of_alike (v w : Value) (h : v.Alike w) : asDebug v = asDebug w := by
  rw [asDebug, asDebug, Option.map_eq_bind, Option.map_eq_bind]
  refine bind_fields?_eq_of_alike (fun f g hfg ↦ ?_) h
  simp only [Function.comp_apply, bind_eq_of_alike asBool_eq_of_alike (hfg "enabled"),
    bind_eq_of_alike asText_eq_of_alike (hfg "log_file")]

/-- **Fields with alike values at each key** make the same file. -/
theorem ofFields_eq_of_alike
    (h : ∀ key, Value.AlikeOption (Fields.get? f key) (Fields.get? g key)) :
    ofFields f = ofFields g := by
  simp only [ofFields, bind_eq_of_alike asText_eq_of_alike (h _),
    bind_eq_of_alike asTexts_eq_of_alike (h _), bind_eq_of_alike asTraceTool_eq_of_alike (h _),
    bind_eq_of_alike asDebug_eq_of_alike (h _), bind_eq_of_alike asBool_eq_of_alike (h _)]

/-! ### Validation -/

/-- The fields that an accepted file has when the schema has put them in order. -/
def dataOf (fields : Fields) : Fields := recordData knownFields fields

theorem dataOf_alike (h : schema.Accepts (.record fields)) (key : String) :
    Value.AlikeOption (Fields.get? (dataOf fields) key) (Fields.get? fields key) :=
  recordData_alike nodup_knownFields readsByKey_of_mem_knownFields h key

theorem schema_dataOf (h : schema.Accepts (.record fields)) :
    schema.dataOf (.record fields) = .record (dataOf fields) :=
  record_dataOf rfl (record_hasVerdict_iff.1 h.hasVerdict fields rfl)

theorem accepts_dataOf (h : schema.Accepts (.record fields)) :
    schema.Accepts (.record (dataOf fields)) :=
  schema_dataOf h ▸ schema_readsByKey.accepts_dataOf h

theorem nodup_keys_dataOf (fields : Fields) : (Fields.keys (dataOf fields)).Nodup :=
  nodup_keys_recordData nodup_knownFields fields

/-- **Validation changes nothing about what a file says.** -/
theorem ofFields_dataOf (h : schema.Accepts (.record fields)) :
    ofFields (dataOf fields) = ofFields fields :=
  ofFields_eq_of_alike (dataOf_alike h)

variable {source : String} {failure : Failure}

theorem validate_of_accepts (h : schema.Accepts (.record fields)) (source : String) :
    validate fields source = .ok (dataOf fields) := by
  have hverdict : schema (.record fields) = .ok ⟨[], .record (dataOf fields)⟩ := schema_dataOf h ▸ h
  simp [validate, hverdict, Value.fields?]

/-- **Fields that are not accepted** are at fault if there is a verdict on them; without one, the
failure says why they cannot be measured. -/
theorem validate_of_not_accepts (h : ¬schema.Accepts (.record fields)) (source : String) :
    (schema.HasVerdict (.record fields) ∧ ∃ issue,
      validate fields source = .error (.config (.invalid issue) (some source))) ∨
    ¬schema.HasVerdict (.record fields) ∧ ∃ cause,
      validate fields source = .error (.inconvertible cause) := by
  cases hverdict : schema (.record fields) with
  | error cause =>
    refine .inr ⟨fun hv ↦ ?_, cause, by rw [validate, hverdict]⟩
    rw [HasVerdict, hverdict] at hv
    cases hv
  | ok verdict =>
    rw [accepts_iff_of_eq hverdict] at h
    obtain ⟨issue, issues, hissues⟩ := List.exists_cons_of_ne_nil h
    exact .inl ⟨.of_eq hverdict, issue, by simp [validate, hverdict, hissues]⟩

theorem validate_eq_ok_iff {data : Fields} :
    validate fields source = .ok data ↔ schema.Accepts (.record fields) ∧ data = dataOf fields := by
  by_cases h : schema.Accepts (.record fields)
  · rw [validate_of_accepts h, Except.ok.injEq, and_iff_right h, eq_comm]
  · simp only [h, false_and, iff_false]
    rcases validate_of_not_accepts h source with ⟨-, issue, hfault⟩ | ⟨-, cause, hfault⟩ <;>
      simp [hfault]

/-! ### Measured values -/

/-- A value is measured if a file has it where a text that is not empty is asked for. -/
inductive IsMeasured (fields : Fields) : Value → Prop where
  /-- The package, the version, or the way to the resources. -/
  | text {key : String} {v : Value} (hkey : key ∈ ["package", "api_version", "resource_offset"])
    (h : Fields.get? fields key = some v) : IsMeasured fields v
  /-- A directory of a list. -/
  | directory {key : String} {items : List Value} {v : Value}
    (hkey : key ∈ ["includes", "system_dirs", "development_dirs"])
    (h : Fields.get? fields key = some (.list items)) (hv : v ∈ items) : IsMeasured fields v
  /-- The program of the companion, or the file of the debug log. -/
  | inSection {name key : String} {inner : Fields} {v : Value}
    (hkey : (name, key) ∈ [("trace_tool", "companion"), ("debug", "log_file")])
    (h : (Fields.get? fields name).bind Value.fields? = some inner)
    (hv : Fields.get? inner key = some v) : IsMeasured fields v

theorem nonempty_hasVerdict_undefined : nonempty.HasVerdict .undefined :=
  nonempty_hasVerdict_iff.2 ⟨none, rfl⟩

theorem dirsSchema_hasVerdict_iff {v : Value} : dirsSchema.HasVerdict v ↔
    ∀ items, v = .list items → ∀ item ∈ items, IsMeasurable item := by
  simp only [dirsSchema, listOf_hasVerdict_iff, nonempty_hasVerdict_iff]

theorem traceToolSchema_hasVerdict_iff {v : Value} : traceToolSchema.HasVerdict v ↔
    ∀ inner, v.fields? = some inner → ∀ companion,
      Fields.get? inner "companion" = some companion → IsMeasurable companion := by
  have habsent : ∀ field ∈ traceToolFields, field.schema.HasVerdict .undefined := by
    simp [traceToolFields, form_hasVerdict, nonempty_hasVerdict_undefined]
  rw [traceToolSchema, record_hasVerdict_iff]
  refine forall₂_congr fun inner _ ↦ ?_
  rw [judges_iff habsent]
  simp [traceToolFields, form_hasVerdict, nonempty_hasVerdict_iff]

theorem debugSchema_hasVerdict_iff {v : Value} : debugSchema.HasVerdict v ↔
    ∀ inner, v.fields? = some inner → ∀ file,
      Fields.get? inner "log_file" = some file → IsMeasurable file := by
  have habsent : ∀ field ∈ debugFields, field.schema.HasVerdict .undefined := by
    simp [debugFields, bool_hasVerdict, nonempty_hasVerdict_undefined]
  rw [debugSchema, record_hasVerdict_iff]
  refine forall₂_congr fun inner _ ↦ ?_
  rw [judges_iff habsent]
  simp [debugFields, bool_hasVerdict, nonempty_hasVerdict_iff]

theorem hasVerdict_undefined : ∀ field ∈ knownFields, field.schema.HasVerdict .undefined := by
  simp [knownFields, logLevelSchema, nonempty_hasVerdict_undefined, form_hasVerdict,
    oneOf_hasVerdict, bool_hasVerdict, dirsSchema_hasVerdict_iff, traceToolSchema_hasVerdict_iff,
    debugSchema_hasVerdict_iff, Value.fields?]

/-- **A file is judged if all of its measured values can be measured.** -/
theorem schema_hasVerdict_iff : schema.HasVerdict (.record fields) ↔
    ∀ v, IsMeasured fields v → IsMeasurable v := by
  rw [schema, record_hasVerdict_iff]
  simp only [Value.fields?, Option.some.injEq, forall_eq', judges_iff hasVerdict_undefined]
  constructor
  · intro h v hv
    cases hv with
    | @text key _ hkey hget =>
      have hfield : ⟨key, nonempty, true⟩ ∈ knownFields := by
        simp only [List.mem_cons, List.not_mem_nil, or_false] at hkey
        rcases hkey with rfl | rfl | rfl <;> simp [knownFields]
      exact nonempty_hasVerdict_iff.1 (h _ hfield v hget)
    | @directory key items _ hkey hget hv =>
      have hfield : ⟨key, dirsSchema, true⟩ ∈ knownFields := by
        simp only [List.mem_cons, List.not_mem_nil, or_false] at hkey
        rcases hkey with rfl | rfl | rfl <;> simp [knownFields]
      exact dirsSchema_hasVerdict_iff.1 (h _ hfield _ hget) items rfl v hv
    | inSection hkey hinner hv =>
      obtain ⟨w, hw, hreads⟩ := Option.bind_eq_some_iff.1 hinner
      simp only [List.mem_cons, List.not_mem_nil, or_false, Prod.mk.injEq] at hkey
      rcases hkey with ⟨rfl, rfl⟩ | ⟨rfl, rfl⟩
      · have hfield : ⟨"trace_tool", traceToolSchema, true⟩ ∈ knownFields := by simp [knownFields]
        exact traceToolSchema_hasVerdict_iff.1 (h _ hfield w hw) _ hreads v hv
      · have hfield : ⟨"debug", debugSchema, true⟩ ∈ knownFields := by simp [knownFields]
        exact debugSchema_hasVerdict_iff.1 (h _ hfield w hw) _ hreads v hv
  · intro h
    have htext : ∀ key ∈ ["package", "api_version", "resource_offset"], ∀ v,
        Fields.get? fields key = some v → nonempty.HasVerdict v := fun key hkey v hv ↦
      nonempty_hasVerdict_iff.2 (h v (.text hkey hv))
    have hdirs : ∀ key ∈ ["includes", "system_dirs", "development_dirs"], ∀ v,
        Fields.get? fields key = some v → dirsSchema.HasVerdict v := fun key hkey v hv ↦
      dirsSchema_hasVerdict_iff.2 fun items hitems item hitem ↦
        h item (.directory hkey (hitems ▸ hv) hitem)
    have htrace : ∀ v, Fields.get? fields "trace_tool" = some v → traceToolSchema.HasVerdict v :=
      fun v hv ↦ traceToolSchema_hasVerdict_iff.2 fun inner hinner companion hcompanion ↦
        h companion (.inSection (List.mem_cons_self ..) (by rw [hv]; exact hinner) hcompanion)
    have hdebug : ∀ v, Fields.get? fields "debug" = some v → debugSchema.HasVerdict v :=
      fun v hv ↦ debugSchema_hasVerdict_iff.2 fun inner hinner file hfile ↦
        h file (.inSection (List.mem_cons_of_mem _ (List.mem_cons_self ..))
          (by rw [hv]; exact hinner) hfile)
    simp only [List.forall_mem_cons] at htext hdirs
    simp only [knownFields, List.forall_mem_cons]
    exact ⟨htext.1, htext.2.1, fun v _ ↦ form_hasVerdict v, htext.2.2.1, hdirs.1, hdirs.2.1,
      hdirs.2.2.1, htrace, fun v _ ↦ oneOf_hasVerdict v, hdebug, fun v _ ↦ bool_hasVerdict v,
      fun _ hnil ↦ absurd hnil List.not_mem_nil⟩

end ResourceLocator.ConfigFile
