import Mathlib.Data.List.Basic
import ResourceLocator.Proofs.Except
import ResourceLocator.Proofs.Value.Alike
import ResourceLocator.Value.Schema

/-!
# What schemas accept

A schema *accepts* a value when it takes no issue with it. For each way of building a schema there
is one statement that says which values are accepted, on values and not on verdicts, and one that
says what data are made of them. Only records are changed: their fields are put in the order of the
schema (`record_dataOf`), so that all that matters of a record is what it has at each key.

A schema *reads by key* if it does not tell alike values apart, and makes of a value something
alike. All schemas here do, so that they accept the data they make. And so a record may be put over
another one of the same schema: whatever stands at a key of the outcome has been accepted there
(`record_accepts_merge`).

A value that cannot be measured has no verdict, and neither has a list or a record with such a value
in it. The statements about `HasVerdict` say where a schema measures at all.
-/

namespace ResourceLocator

namespace Schema

variable {v : Value}

/-- The verdict of a schema on a value; if it has none, that nothing is wrong. -/
def verdictOf (schema : Schema) (v : Value) : Verdict :=
  match schema v with
  | .ok verdict => verdict
  | .error _ => accept v

/-- The data that a schema makes of a value. -/
def dataOf (schema : Schema) (v : Value) : Value := (schema.verdictOf v).data

/-- A schema has a verdict on a value. -/
def HasVerdict (schema : Schema) (v : Value) : Prop := schema v = .ok (schema.verdictOf v)

/-- A schema takes no issue with a value. -/
def Accepts (schema : Schema) (v : Value) : Prop := schema v = .ok ⟨[], schema.dataOf v⟩

section Verdict

variable {schema : Schema} {verdict : Verdict}

theorem verdictOf_eq (h : schema v = .ok verdict) : schema.verdictOf v = verdict := by
  rw [verdictOf, h]

theorem hasVerdict_iff : schema.HasVerdict v ↔ ∃ verdict, schema v = .ok verdict := by
  refine ⟨fun h ↦ ⟨_, h⟩, ?_⟩
  rintro ⟨verdict, h⟩
  rw [HasVerdict, verdictOf_eq h, h]

theorem HasVerdict.of_eq (h : schema v = .ok verdict) : schema.HasVerdict v :=
  hasVerdict_iff.2 ⟨verdict, h⟩

theorem Accepts.hasVerdict (h : schema.Accepts v) : schema.HasVerdict v := .of_eq h

theorem accepts_iff : schema.Accepts v ↔
    schema.HasVerdict v ∧ (schema.verdictOf v).issues = [] := by
  constructor
  · intro h
    exact ⟨h.hasVerdict, by rw [verdictOf_eq h]⟩
  · rintro ⟨hverdict, hissues⟩
    rw [Accepts, dataOf, ← hissues]
    exact hverdict

theorem accepts_iff_of_eq (h : schema v = .ok verdict) :
    schema.Accepts v ↔ verdict.issues = [] := by
  rw [accepts_iff, verdictOf_eq h, and_iff_right (.of_eq h)]

end Verdict

/-! ### Texts, truth values, options -/

/-- A value has been measured. -/
def IsMeasurable (v : Value) : Prop := ∃ measured, emptiness? v = .ok measured

theorem judgeText_issues_eq_nil_iff : (judgeText v).issues = [] ↔ ∃ s, v = .text s := by
  cases v <;> simp [judgeText, accept, reject]

theorem nonempty_hasVerdict_iff : nonempty.HasVerdict v ↔ IsMeasurable v := by
  rw [hasVerdict_iff, IsMeasurable, nonempty]
  cases emptiness? v <;> simp [Except.map]

theorem nonempty_accepts_iff : nonempty.Accepts v ↔ ∃ s, v = .text s ∧ s ≠ "" := by
  cases hmeasured : emptiness? v with
  | error cause =>
    have hnone : nonempty v = .error cause := by rw [nonempty, hmeasured, Except.map]
    have htext : ¬∃ s, v = .text s ∧ s ≠ "" := by
      rintro ⟨s, rfl, -⟩
      cases hmeasured
    simp [Accepts, hnone, htext]
  | ok measured =>
    have hok : nonempty v = .ok ⟨(judgeText v).issues ++
        measured.toList.map (fun sized ↦ ⟨[], .empty sized⟩), v⟩ := by
      rw [nonempty, hmeasured, Except.map]
    rw [accepts_iff_of_eq hok, List.append_eq_nil_iff, judgeText_issues_eq_nil_iff]
    constructor
    · rintro ⟨⟨s, rfl⟩, hsized⟩
      obtain rfl := Except.ok.inj hmeasured
      refine ⟨s, rfl, fun hs ↦ ?_⟩
      simp [hs] at hsized
    · rintro ⟨s, rfl, hs⟩
      obtain rfl := Except.ok.inj hmeasured
      exact ⟨⟨s, rfl⟩, by simp [hs]⟩

theorem form_accepts_iff {ok : String → Bool} {message : String} :
    (form ok message).Accepts v ↔ ∃ s, v = .text s ∧ ok s = true := by
  cases v with
  | text s => cases hs : ok s <;> simp [Accepts, form, dataOf, verdictOf, accept, reject, hs]
  | _ => simp [Accepts, form, dataOf, verdictOf, judgeText, reject]

theorem form_hasVerdict {ok : String → Bool} {message : String} (v : Value) :
    (form ok message).HasVerdict v := by
  cases v <;> exact .of_eq rfl

theorem bool_accepts_iff : bool.Accepts v ↔ ∃ b, v = .bool b := by
  cases v <;> simp [Accepts, bool, dataOf, verdictOf, accept, reject]

theorem bool_hasVerdict (v : Value) : bool.HasVerdict v := by
  cases v <;> exact .of_eq rfl

theorem oneOf_accepts_iff {options : List String} :
    (oneOf options).Accepts v ↔ ∃ s ∈ options, v = .text s := by
  cases v with
  | text s =>
    by_cases hs : s ∈ options <;>
      simp [Accepts, oneOf, dataOf, verdictOf, accept, reject, hs]
  | _ => simp [Accepts, oneOf, dataOf, verdictOf, reject]

theorem oneOf_hasVerdict {options : List String} (v : Value) : (oneOf options).HasVerdict v := by
  cases v <;> exact .of_eq rfl

/-! ### Schemas that change nothing -/

/-- A schema makes of every value the value itself. -/
def Keeps (schema : Schema) : Prop := ∀ v, schema.dataOf v = v

theorem nonempty_keeps : Keeps nonempty := by
  intro v
  rw [dataOf, verdictOf, nonempty]
  cases emptiness? v <;> rfl

theorem form_keeps (ok : String → Bool) (message : String) : Keeps (form ok message) := by
  intro v
  cases v with
  | text s => cases hs : ok s <;> simp [dataOf, verdictOf, form, accept, reject, hs]
  | _ => rfl

theorem bool_keeps : Keeps bool := by
  intro v
  cases v <;> rfl

theorem oneOf_keeps (options : List String) : Keeps (oneOf options) := by
  intro v
  cases v with
  | text s => by_cases hs : s ∈ options <;> simp [dataOf, verdictOf, oneOf, accept, reject, hs]
  | _ => rfl

/-! ### Lists -/

theorem under_eq_nil_iff {step : PathStep} {issues : List Issue} :
    under step issues = [] ↔ issues = [] :=
  List.map_eq_nil_iff

/-- The issues with the items of a list are none if there is none with any item. -/
theorem flatten_under_eq_nil_iff {verdicts : List Verdict} :
    (verdicts.zipIdx.map fun (v, i) ↦ under (.index i) v.issues).flatten = [] ↔
      ∀ verdict ∈ verdicts, verdict.issues = [] := by
  rw [List.flatten_eq_nil_iff, List.forall_mem_map]
  constructor
  · intro h verdict hverdict
    obtain ⟨i, hi, rfl⟩ := List.mem_iff_getElem.1 hverdict
    exact under_eq_nil_iff.1 (h (verdicts[i], i) (List.mk_mem_zipIdx_iff_getElem?.2 (by simp)))
  · rintro h ⟨verdict, i⟩ hentry
    exact under_eq_nil_iff.2 (h verdict (List.fst_mem_of_mem_zipIdx hentry))

variable {item : Schema}

theorem listOf_eq {items : List Value} (h : ∀ x ∈ items, item.HasVerdict x) :
    listOf item (.list items) =
      .ok ⟨((items.map item.verdictOf).zipIdx.map fun (v, i) ↦ under (.index i) v.issues).flatten,
        .list (items.map item.dataOf)⟩ := by
  rw [listOf, mapM_of_forall_ok h]
  simp [bind, Except.bind, pure, Except.pure, dataOf]

theorem listOf_hasVerdict_iff :
    (listOf item).HasVerdict v ↔ ∀ items, v = .list items → ∀ x ∈ items, item.HasVerdict x := by
  cases v with
  | list items =>
    simp only [hasVerdict_iff, listOf, Value.list.injEq, forall_eq', ← exists_mapM_eq_ok_iff]
    cases items.mapM item <;> simp [bind, Except.bind, pure, Except.pure]
  | _ => simp [hasVerdict_iff, listOf]

theorem listOf_accepts_iff :
    (listOf item).Accepts v ↔ ∃ items, v = .list items ∧ ∀ x ∈ items, item.Accepts x := by
  cases v with
  | list items =>
    simp only [Value.list.injEq, exists_eq_left']
    constructor
    · intro h
      have hverdict := listOf_hasVerdict_iff.1 h.hasVerdict items rfl
      rw [accepts_iff_of_eq (listOf_eq hverdict), flatten_under_eq_nil_iff,
        List.forall_mem_map] at h
      exact fun x hx ↦ accepts_iff.2 ⟨hverdict x hx, h x hx⟩
    · intro h
      rw [accepts_iff_of_eq (listOf_eq fun x hx ↦ (h x hx).hasVerdict), flatten_under_eq_nil_iff,
        List.forall_mem_map]
      exact fun x hx ↦ (accepts_iff.1 (h x hx)).2
  | _ => simp [Accepts, listOf, reject]

theorem listOf_keeps (h : Keeps item) : Keeps (listOf item) := by
  intro v
  by_cases hverdict : (listOf item).HasVerdict v
  · cases v with
    | list items =>
      rw [dataOf, verdictOf_eq (listOf_eq (listOf_hasVerdict_iff.1 hverdict items rfl)),
        List.map_congr_left fun x _ ↦ h x, List.map_id']
    | _ => rfl
  · cases hnone : listOf item v with
    | ok verdict => exact absurd (.of_eq hnone) hverdict
    | error cause => rw [dataOf, verdictOf, hnone, accept]

/-! ### Records -/

/-- The schema of what a record has at a key: a field that may be left out may also be absent. -/
def Field.whole (field : Field) : Schema := fun v ↦
  match field.isOptional, v with
  | true, .undefined => .ok (accept .undefined)
  | _, v => field.schema v

theorem Field.judge_eq (field : Field) (fields : Fields) :
    field.judge fields = field.whole ((Fields.get? fields field.key).getD .undefined) := rfl

theorem Field.whole_undefined {field : Field} (h : field.isOptional = true) :
    field.whole .undefined = .ok (accept .undefined) := by
  unfold whole
  rw [h]

theorem Field.whole_eq {field : Field} (h : ¬(field.isOptional = true ∧ v = .undefined)) :
    field.whole v = field.schema v := by
  unfold whole
  split
  · next hoptional => exact absurd ⟨hoptional, rfl⟩ h
  · rfl

/-- What is accepted of a field: that it is left out, where it may be, and what its schema accepts.
-/
theorem Field.whole_accepts_iff {field : Field} :
    field.whole.Accepts v ↔
      (field.isOptional = true ∧ v = .undefined) ∨ field.schema.Accepts v := by
  by_cases habsent : field.isOptional = true ∧ v = .undefined
  · obtain ⟨hoptional, rfl⟩ := habsent
    exact iff_of_true ((accepts_iff_of_eq (whole_undefined hoptional)).2 rfl)
      (.inl ⟨hoptional, rfl⟩)
  · simp only [Accepts, dataOf, verdictOf, whole_eq habsent, habsent, false_or]

/-- A schema that has a verdict on the absent value judges a field by what is there, if anything. -/
theorem Field.whole_hasVerdict_iff {field : Field} {given : Option Value}
    (h : field.schema.HasVerdict .undefined) : field.whole.HasVerdict (given.getD .undefined) ↔
      ∀ v, given = some v → field.schema.HasVerdict v := by
  have hwhole : ∀ v, field.whole.HasVerdict v ↔ field.schema.HasVerdict v := fun v ↦ by
    by_cases habsent : field.isOptional = true ∧ v = .undefined
    · obtain ⟨hoptional, rfl⟩ := habsent
      exact iff_of_true (.of_eq (whole_undefined hoptional)) h
    · simp only [HasVerdict, verdictOf, whole_eq habsent]
  rw [hwhole]
  cases given with
  | none => simpa using h
  | some v => simp

variable {known : List Field} {fields : Fields}

/-- A schema of a record has a verdict on what the record has at each known key. -/
def Judges (known : List Field) (fields : Fields) : Prop :=
  ∀ field ∈ known, field.whole.HasVerdict ((Fields.get? fields field.key).getD .undefined)

theorem judges_iff (h : ∀ field ∈ known, field.schema.HasVerdict .undefined) :
    Judges known fields ↔ ∀ field ∈ known, ∀ v, Fields.get? fields field.key = some v →
      field.schema.HasVerdict v :=
  forall₂_congr fun field hfield ↦ Field.whole_hasVerdict_iff (h field hfield)

/-- The data made of a record: what is made of it at each key where it has something. -/
def recordData (known : List Field) (fields : Fields) : Fields :=
  known.filterMap fun field ↦
    ((Fields.get? fields field.key).map field.whole.dataOf).map (field.key, ·)

theorem get?_recordData (hknown : (known.map (·.key)).Nodup) {field : Field}
    (hfield : field ∈ known) (fields : Fields) :
    Fields.get? (recordData known fields) field.key =
      (Fields.get? fields field.key).map field.whole.dataOf :=
  Fields.get?_filterMap Field.key
    (fun field ↦ (Fields.get? fields field.key).map field.whole.dataOf) hknown hfield

/-- The issues with what a record has at the known keys. -/
def knownIssues (known : List Field) (fields : Fields) : List Issue :=
  (known.map fun field ↦ under (.key field.key)
    (field.whole.verdictOf ((Fields.get? fields field.key).getD .undefined)).issues).flatten

/-- The issue with the other keys of a record, if it has any. -/
def unknownIssues (known : List Field) (fields : Fields) : List Issue :=
  let unknown := (Fields.keys fields).filter fun key ↦ !(known.map (·.key)).contains key
  if unknown.isEmpty then [] else [⟨[], .unknownKeys unknown⟩]

theorem knownIssues_eq_nil_iff : knownIssues known fields = [] ↔ ∀ field ∈ known,
    (field.whole.verdictOf ((Fields.get? fields field.key).getD .undefined)).issues = [] := by
  rw [knownIssues, List.flatten_eq_nil_iff, List.forall_mem_map]
  exact forall₂_congr fun _ _ ↦ under_eq_nil_iff

theorem unknownIssues_eq_nil_iff : unknownIssues known fields = [] ↔
    ∀ key ∈ Fields.keys fields, key ∈ known.map (·.key) := by
  rw [unknownIssues, ite_eq_left_iff]
  simp

/-- Each issue with a record is one with what it has at a known key, or is about its other keys. -/
theorem record_eq (hfields : v.fields? = some fields) (h : Judges known fields) :
    record known v =
      .ok ⟨knownIssues known fields ++ unknownIssues known fields,
        .record (recordData known fields)⟩ := by
  have hverdicts : (known.mapM fun field ↦ return (field.key, ← field.judge fields) :
      Except Value.Inconvertible (List (String × Verdict))) =
      .ok (known.map fun field ↦ (field.key,
        field.whole.verdictOf ((Fields.get? fields field.key).getD .undefined))) :=
    mapM_of_forall_ok fun field hfield ↦ by
      rw [Field.judge_eq, h field hfield]
      rfl
  have hdata : (known.filterMap fun field ↦ if (Fields.get? fields field.key).isSome
      then some (field.key,
        (field.whole.verdictOf ((Fields.get? fields field.key).getD .undefined)).data)
      else none) = recordData known fields := by
    unfold recordData
    congr 1
    funext field
    cases Fields.get? fields field.key <;> rfl
  rw [record, hfields]
  dsimp only
  rw [hverdicts]
  simp only [bind, Except.bind, pure, Except.pure, List.map_map, Function.comp_def,
    List.filterMap_map, hdata, knownIssues, unknownIssues]

theorem record_hasVerdict_iff : (record known).HasVerdict v ↔
    ∀ fields, v.fields? = some fields → Judges known fields := by
  constructor
  · intro h fields hfields
    obtain ⟨verdict, hverdict⟩ := hasVerdict_iff.1 h
    rw [record, hfields] at hverdict
    dsimp only at hverdict
    obtain ⟨verdicts, hverdicts, -⟩ := bind_eq_ok_iff.1 hverdict
    intro field hfield
    obtain ⟨pair, hpair⟩ := exists_mapM_eq_ok_iff.1 ⟨verdicts, hverdicts⟩ field hfield
    obtain ⟨fieldVerdict, hjudge, -⟩ := bind_eq_ok_iff.1 hpair
    exact .of_eq hjudge
  · intro h
    cases hfields : v.fields? with
    | none => exact .of_eq (by rw [record, hfields])
    | some fields => exact .of_eq (record_eq hfields (h fields hfields))

theorem record_dataOf (hfields : v.fields? = some fields) (h : Judges known fields) :
    (record known).dataOf v = .record (recordData known fields) := by
  rw [dataOf, verdictOf_eq (record_eq hfields h)]

/-- **A record is accepted** if each of its keys is known, and what it has at each known key is
accepted there. -/
theorem record_accepts_iff : (record known).Accepts v ↔ ∃ fields, v.fields? = some fields ∧
    (∀ key ∈ Fields.keys fields, key ∈ known.map (·.key)) ∧
    ∀ field ∈ known, field.whole.Accepts ((Fields.get? fields field.key).getD .undefined) := by
  constructor
  · intro h
    cases hfields : v.fields? with
    | none =>
      have hrejected : record known v = .ok (reject v (.wrongType "object" v.typeName)) := by
        rw [record, hfields]
      rw [accepts_iff_of_eq hrejected] at h
      cases h
    | some fields =>
      have hjudges := record_hasVerdict_iff.1 h.hasVerdict fields hfields
      rw [accepts_iff_of_eq (record_eq hfields hjudges), List.append_eq_nil_iff,
        knownIssues_eq_nil_iff, unknownIssues_eq_nil_iff] at h
      obtain ⟨hissues, hkeys⟩ := h
      exact ⟨fields, rfl, hkeys, fun field hfield ↦
        accepts_iff.2 ⟨hjudges field hfield, hissues field hfield⟩⟩
  · rintro ⟨fields, hfields, hkeys, hknown⟩
    have hjudges : Judges known fields := fun field hfield ↦ (hknown field hfield).hasVerdict
    rw [accepts_iff_of_eq (record_eq hfields hjudges), List.append_eq_nil_iff,
      knownIssues_eq_nil_iff, unknownIssues_eq_nil_iff]
    exact ⟨fun field hfield ↦ (accepts_iff.1 (hknown field hfield)).2, hkeys⟩

/-! ### Reading key by key -/

/-- A schema does not tell alike values apart, and what it makes of a value is alike to it. -/
structure ReadsByKey (schema : Schema) : Prop where
  /-- What is alike to an accepted value is accepted. -/
  accepts_alike {v w : Value} (h : Value.Alike v w) (hv : schema.Accepts v) : schema.Accepts w
  /-- The data are alike to the value. -/
  dataOf_alike {v : Value} (hv : schema.Accepts v) : Value.Alike (schema.dataOf v) v

/-- The data made of an accepted value are accepted. -/
theorem ReadsByKey.accepts_dataOf {schema : Schema} (h : ReadsByKey schema)
    (hv : schema.Accepts v) : schema.Accepts (schema.dataOf v) :=
  h.accepts_alike (h.dataOf_alike hv).symm hv

/-- So does a schema of values that do not read as records, if it changes nothing. -/
theorem Keeps.readsByKey {schema : Schema} (hkeeps : Keeps schema)
    (h : ∀ v, schema.Accepts v → v.fields? = none) : ReadsByKey schema where
  accepts_alike hvw hv := hvw.eq_of_fields?_eq_none (h _ hv) ▸ hv
  dataOf_alike {v} _ := by
    rw [hkeeps v]
    exact .same v

theorem nonempty_readsByKey : ReadsByKey nonempty :=
  nonempty_keeps.readsByKey fun v hv ↦ by
    obtain ⟨s, rfl, -⟩ := nonempty_accepts_iff.1 hv
    rfl

theorem form_readsByKey (ok : String → Bool) (message : String) : ReadsByKey (form ok message) :=
  (form_keeps ok message).readsByKey fun v hv ↦ by
    obtain ⟨s, rfl, -⟩ := form_accepts_iff.1 hv
    rfl

theorem bool_readsByKey : ReadsByKey bool :=
  bool_keeps.readsByKey fun v hv ↦ by
    obtain ⟨b, rfl⟩ := bool_accepts_iff.1 hv
    rfl

theorem oneOf_readsByKey (options : List String) : ReadsByKey (oneOf options) :=
  (oneOf_keeps options).readsByKey fun v hv ↦ by
    obtain ⟨s, -, rfl⟩ := oneOf_accepts_iff.1 hv
    rfl

theorem listOf_readsByKey (hkeeps : Keeps item) : ReadsByKey (listOf item) :=
  (listOf_keeps hkeeps).readsByKey fun v hv ↦ by
    obtain ⟨items, rfl, -⟩ := listOf_accepts_iff.1 hv
    rfl

theorem Field.whole_readsByKey {field : Field} (h : ReadsByKey field.schema) :
    ReadsByKey field.whole := by
  refine ⟨fun {v w} hvw hv ↦ ?_, fun {v} hv ↦ ?_⟩
  · rw [Field.whole_accepts_iff] at hv ⊢
    rcases hv with ⟨hoptional, rfl⟩ | hv
    · -- The absent value does not read as a record.
      exact .inl ⟨hoptional, (hvw.eq_of_fields?_eq_none rfl).symm⟩
    · exact .inr (h.accepts_alike hvw hv)
  · by_cases habsent : field.isOptional = true ∧ v = .undefined
    · obtain ⟨hoptional, rfl⟩ := habsent
      rw [dataOf, verdictOf_eq (whole_undefined hoptional), accept]
      exact .same _
    · have hdata : field.whole.dataOf v = field.schema.dataOf v := by
        rw [dataOf, verdictOf, whole_eq habsent, ← verdictOf, ← dataOf]
      rw [hdata]
      exact h.dataOf_alike ((Field.whole_accepts_iff.1 hv).resolve_left habsent)

theorem ReadsByKey.accepts_getD {schema : Schema} (h : ReadsByKey schema) {a b : Option Value}
    (hab : Value.AlikeOption a b) (ha : schema.Accepts (a.getD .undefined)) :
    schema.Accepts (b.getD .undefined) := by
  cases hab with
  | none => exact ha
  | some hvw => exact h.accepts_alike hvw ha

theorem mem_keys_recordData {key : String} (h : key ∈ Fields.keys (recordData known fields)) :
    key ∈ known.map (·.key) :=
  (Fields.keys_filterMap known (·.key) _).subset h

theorem nodup_keys_recordData (hknown : (known.map (·.key)).Nodup) (fields : Fields) :
    (Fields.keys (recordData known fields)).Nodup :=
  hknown.sublist (Fields.keys_filterMap known (·.key) _)

/-- What the data of an accepted record have at a key is alike to what the record has there. -/
theorem recordData_alike (hknown : (known.map (·.key)).Nodup)
    (hreads : ∀ field ∈ known, ReadsByKey field.schema)
    (h : (record known).Accepts (.record fields)) (key : String) :
    Value.AlikeOption (Fields.get? (recordData known fields) key) (Fields.get? fields key) := by
  obtain ⟨_, hfields, hkeys, hat⟩ := record_accepts_iff.1 h
  obtain rfl := Option.some.inj hfields
  by_cases hkey : key ∈ known.map (·.key)
  · obtain ⟨field, hfield, rfl⟩ := List.mem_map.1 hkey
    rw [get?_recordData hknown hfield]
    have hv := hat field hfield
    cases hget : Fields.get? _ field.key with
    | none => exact .none
    | some v =>
      rw [hget] at hv
      exact .some ((Field.whole_readsByKey (hreads field hfield)).dataOf_alike hv)
  · rw [Fields.get?_eq_none_iff.2 fun hmem ↦ hkey (mem_keys_recordData hmem),
      Fields.get?_eq_none_iff.2 fun hmem ↦ hkey (hkeys key hmem)]
    exact .none

/-- **A record schema reads key by key** if the schemas of its fields do. -/
theorem record_readsByKey (hknown : (known.map (·.key)).Nodup)
    (hreads : ∀ field ∈ known, ReadsByKey field.schema) : ReadsByKey (record known) := by
  refine ⟨fun {v w} hvw hv ↦ ?_, fun {v} hv ↦ ?_⟩
  · obtain ⟨f, hf, hkeys, hat⟩ := record_accepts_iff.1 hv
    obtain ⟨g, hg⟩ := hvw.exists_fields? hf
    refine record_accepts_iff.2 ⟨g, hg, fun key hkey ↦ hkeys key ?_, fun field hfield ↦ ?_⟩
    · rw [Fields.mem_keys_iff, (Value.alikeOption_iff.1 (hvw.get? hf hg key)).1]
      exact Fields.mem_keys_iff.1 hkey
    · exact (Field.whole_readsByKey (hreads field hfield)).accepts_getD (hvw.get? hf hg field.key)
        (hat field hfield)
  · obtain ⟨f, hf, hkeys, hat⟩ := record_accepts_iff.1 hv
    rw [record_dataOf hf fun field hfield ↦ (hat field hfield).hasVerdict]
    exact .of_forall rfl hf
      (recordData_alike hknown hreads (record_accepts_iff.2 ⟨f, rfl, hkeys, hat⟩))

/-! ### Records of one schema over each other -/

/-- **A record over another one of the same schema** is accepted, as long as its keys are different:
whatever stands at a key has been accepted there. -/
theorem record_accepts_merge_of_nodup {lower upper : Fields} (hkeys : (Fields.keys upper).Nodup)
    (hlower : (record known).Accepts (.record lower))
    (hupper : (record known).Accepts (.record upper)) :
    (record known).Accepts (.record (Fields.merge lower upper)) := by
  obtain ⟨_, hsame, hlowerKeys, hlowerAt⟩ := record_accepts_iff.1 hlower
  obtain ⟨_, hsame', hupperKeys, hupperAt⟩ := record_accepts_iff.1 hupper
  obtain rfl := Option.some.inj hsame
  obtain rfl := Option.some.inj hsame'
  have hget := Fields.get?_merge hkeys
  refine record_accepts_iff.2 ⟨_, rfl, fun key hkey ↦ ?_, fun field hfield ↦ ?_⟩
  · rw [Fields.mem_keys_iff, hget, Option.isSome_or, Bool.or_eq_true, ← Fields.mem_keys_iff,
      ← Fields.mem_keys_iff] at hkey
    exact hkey.elim (hupperKeys key) (hlowerKeys key)
  · rw [hget]
    cases hupperGet : Fields.get? _ field.key with
    | some v =>
      have haccepts := hupperAt field hfield
      rwa [hupperGet] at haccepts
    | none => exact hlowerAt field hfield

/-- So is the data made of a record over the data made of another one. -/
theorem record_accepts_merge {lower upper : Fields} (hknown : (known.map (·.key)).Nodup)
    (hreads : ∀ field ∈ known, ReadsByKey field.schema)
    (hlower : (record known).Accepts (.record lower))
    (hupper : (record known).Accepts (.record upper)) :
    (record known).Accepts
      (.record (Fields.merge (recordData known lower) (recordData known upper))) := by
  have hdata : ∀ {fields}, (record known).Accepts (.record fields) →
      (record known).Accepts (.record (recordData known fields)) := fun {fields} hfields ↦ by
    have hmade : (record known).dataOf (.record fields) = .record (recordData known fields) :=
      record_dataOf rfl (record_hasVerdict_iff.1 hfields.hasVerdict fields rfl)
    exact hmade ▸ (record_readsByKey hknown hreads).accepts_dataOf hfields
  exact record_accepts_merge_of_nodup (nodup_keys_recordData hknown upper) (hdata hlower)
    (hdata hupper)

end Schema

end ResourceLocator
