import Mathlib.Data.List.Forall2
import Mathlib.Data.List.Nodup
import ResourceLocator.Proofs.Value.Schema

/-!
# Schemas on plain data

*Plain* data is what JSON has: nulls, truth values, finite numbers and texts, and lists and records
of such, whose keys are different (`Value.IsPlain`). On plain data a record schema can be told by a
table, which says what is valid at which key, and by the keys that must not be left out
(`Schema.record_accepts_iff_isRecordOf`).

The data that a schema makes of an accepted value are plain again, and the schema makes the same of
them (`Schema.Settles`): only the order of fields can change, and it does so once.
-/

namespace ResourceLocator

/-- A value as JSON has it. No record has a key `__proto__`, which stands for something else where
records are objects. -/
inductive Value.IsPlain : Value → Prop where
  /-- The null value. -/
  | null : IsPlain .null
  /-- A truth value. -/
  | bool (b : Bool) : IsPlain (.bool b)
  /-- A finite number. -/
  | number (negative : Bool) (m : Nat) (e : Int) : IsPlain (.number (.finite negative m e))
  /-- A text. -/
  | text (s : String) : IsPlain (.text s)
  /-- A list of such values. -/
  | list {items : List Value} (h : ∀ item ∈ items, IsPlain item) : IsPlain (.list items)
  /-- A record of such values. -/
  | record {fields : Fields} (h : ∀ field ∈ fields, IsPlain field.2)
    (hkeys : (Fields.keys fields).Nodup) (hproto : "__proto__" ∉ Fields.keys fields) :
    IsPlain (.record fields)

variable {v : Value} {fields : Fields} {key : String}

namespace Fields

theorem mem_of_get? (h : get? fields key = some v) : (key, v) ∈ fields := by
  obtain ⟨⟨k, w⟩, hfind, rfl⟩ := Option.map_eq_some_iff.1 h
  obtain rfl : k = key := by simpa using List.find?_some hfind
  exact List.mem_of_find?_eq_some hfind

/-- Where keys are different, a record has at a key what stands with it. -/
theorem get?_eq_some_iff (hkeys : (keys fields).Nodup) :
    get? fields key = some v ↔ (key, v) ∈ fields := by
  refine ⟨mem_of_get?, fun h ↦ ?_⟩
  obtain ⟨w, hw⟩ := Option.isSome_iff_exists.1 (mem_keys_iff.1 (List.mem_map_of_mem h))
  have hsame : (key, w) = (key, v) := List.inj_on_of_nodup_map hkeys (mem_of_get? hw) h rfl
  rw [hw, (Prod.mk.inj hsame).2]

end Fields

namespace Value.IsPlain

theorem ne_undefined (h : v.IsPlain) : v ≠ .undefined := by
  rintro rfl
  cases h

theorem eq_record (h : v.IsPlain) (hfields : v.fields? = some fields) : v = .record fields := by
  cases h with
  | record => rw [← Option.some.inj hfields]
  | _ => cases hfields

theorem nodup_keys (h : (Value.record fields).IsPlain) : (Fields.keys fields).Nodup := by
  cases h with
  | record _ hkeys => exact hkeys

theorem of_get? (h : (Value.record fields).IsPlain) (hv : Fields.get? fields key = some v) :
    v.IsPlain := by
  cases h with
  | record h => exact h _ (Fields.mem_of_get? hv)

end Value.IsPlain

namespace Schema

variable {known : List Field} {field : Field}

/-! ### Records by tables -/

/-- What is valid at which key. -/
abbrev Table := List (String × (Value → Prop))

/-- A record of what a table has valid, with some keys that must not be left out. -/
def IsRecordOf (table : Table) (required : List String) (v : Value) : Prop :=
  ∃ fields, v = .record fields ∧
    (∀ field ∈ fields, ∃ valid, (field.1, valid) ∈ table ∧ valid field.2) ∧
    ∀ key ∈ required, key ∈ Fields.keys fields

/-- A row of a table says what a field of a schema accepts. -/
structure Field.Matches (field : Field) (row : String × (Value → Prop)) : Prop where
  /-- It is for the key of the field. -/
  key : row.1 = field.key
  /-- It has valid what is accepted. -/
  accepts_iff {v : Value} (hv : v.IsPlain) : field.schema.Accepts v ↔ row.2 v
  /-- What must not be left out is not accepted if it is absent. -/
  required (h : field.isOptional = false) : ¬field.schema.Accepts .undefined

/-- The keys that must not be left out. -/
def requiredKeys (known : List Field) : List String :=
  (known.filter fun field ↦ !field.isOptional).map (·.key)

theorem Field.whole_accepts_iff_of_isPlain (hv : v.IsPlain) :
    field.whole.Accepts v ↔ field.schema.Accepts v := by
  rw [whole_accepts_iff, or_iff_right fun h ↦ hv.ne_undefined h.2]

section Matches

variable {α β : Type} {R : α → β → Prop} {as : List α} {bs : List β}

theorem exists_right_of_forall₂ (h : List.Forall₂ R as bs) {a : α} (ha : a ∈ as) :
    ∃ b ∈ bs, R a b := by
  induction h with
  | nil => cases ha
  | cons hab _ ih =>
    rcases List.mem_cons.1 ha with rfl | ha
    · exact ⟨_, List.mem_cons_self, hab⟩
    · obtain ⟨b, hb, hR⟩ := ih ha
      exact ⟨b, List.mem_cons_of_mem _ hb, hR⟩

theorem exists_left_of_forall₂ (h : List.Forall₂ R as bs) {b : β} (hb : b ∈ bs) :
    ∃ a ∈ as, R a b :=
  exists_right_of_forall₂ h.flip hb

end Matches

/-- **What a record schema accepts of plain data** is a record of what the table has valid. -/
theorem record_accepts_iff_isRecordOf {table : Table} (hknown : (known.map (·.key)).Nodup)
    (hmatch : List.Forall₂ Field.Matches known table) (hv : v.IsPlain) :
    (record known).Accepts v ↔ IsRecordOf table (requiredKeys known) v := by
  rw [record_accepts_iff]
  constructor
  · rintro ⟨fields, hfields, hkeys, hat⟩
    obtain rfl := hv.eq_record hfields
    refine ⟨fields, rfl, fun entry hentry ↦ ?_, fun key hkey ↦ ?_⟩
    · have hget : Fields.get? fields entry.1 = some entry.2 :=
        (Fields.get?_eq_some_iff hv.nodup_keys).2 hentry
      obtain ⟨field, hfield, hkey⟩ := List.mem_map.1 (hkeys _ (List.mem_map_of_mem hentry))
      obtain ⟨row, hrow, hmatches⟩ := exists_right_of_forall₂ hmatch hfield
      have haccepts := hat field hfield
      rw [hkey, hget, Option.getD_some, Field.whole_accepts_iff_of_isPlain (hv.of_get? hget),
        hmatches.accepts_iff (hv.of_get? hget)] at haccepts
      exact ⟨row.2, (hmatches.key.trans hkey) ▸ hrow, haccepts⟩
    · obtain ⟨field, hfield, rfl⟩ := List.mem_map.1 hkey
      obtain ⟨hfield, hrequired⟩ := List.mem_filter.1 hfield
      rw [Bool.not_eq_true'] at hrequired
      obtain ⟨row, -, hmatches⟩ := exists_right_of_forall₂ hmatch hfield
      by_contra hmissing
      have haccepts := hat field hfield
      rw [Fields.get?_eq_none_iff.2 hmissing, Option.getD_none, Field.whole_accepts_iff,
        hrequired] at haccepts
      exact hmatches.required hrequired (haccepts.resolve_left fun h ↦ nomatch h.1)
  · rintro ⟨fields, rfl, hvalid, hrequired⟩
    refine ⟨fields, rfl, fun key hkey ↦ ?_, fun field hfield ↦ ?_⟩
    · obtain ⟨entry, hentry, rfl⟩ := List.mem_map.1 hkey
      obtain ⟨valid, hrow, -⟩ := hvalid entry hentry
      obtain ⟨field, hfield, hmatches⟩ := exists_left_of_forall₂ hmatch hrow
      exact List.mem_map.2 ⟨field, hfield, hmatches.key.symm⟩
    · cases hget : Fields.get? fields field.key with
      | none =>
        have hmissing := Fields.get?_eq_none_iff.1 hget
        refine Field.whole_accepts_iff.2 (.inl ⟨?_, rfl⟩)
        by_contra hoptional
        exact hmissing (hrequired _ (List.mem_map.2
          ⟨field, List.mem_filter.2 ⟨hfield, by simpa using hoptional⟩, rfl⟩))
      | some x =>
        obtain ⟨valid, hrow, hx⟩ := hvalid _ (Fields.mem_of_get? hget)
        obtain ⟨field', hfield', hmatches⟩ := exists_left_of_forall₂ hmatch hrow
        obtain rfl : field' = field :=
          List.inj_on_of_nodup_map hknown hfield' hfield hmatches.key.symm
        rw [Option.getD_some, Field.whole_accepts_iff_of_isPlain (hv.of_get? hget)]
        exact (hmatches.accepts_iff (hv.of_get? hget)).2 hx

/-! ### Data made of plain data -/

/-- A schema makes plain data of plain data, and of what it has made it makes the same. -/
structure Settles (schema : Schema) : Prop where
  /-- The data are plain. -/
  isPlain {v : Value} (hv : v.IsPlain) (h : schema.Accepts v) : (schema.dataOf v).IsPlain
  /-- The data stay as they are. -/
  dataOf_dataOf {v : Value} (hv : v.IsPlain) (h : schema.Accepts v) :
    schema.dataOf (schema.dataOf v) = schema.dataOf v

theorem Keeps.settles {schema : Schema} (h : Keeps schema) : Settles schema where
  isPlain hv _ := by rwa [h]
  dataOf_dataOf _ _ := by rw [h, h]

theorem Field.whole_dataOf (hv : v.IsPlain) : field.whole.dataOf v = field.schema.dataOf v := by
  rw [dataOf, verdictOf, whole_eq fun h ↦ hv.ne_undefined h.2, ← verdictOf, ← dataOf]

theorem Field.whole_settles (h : Settles field.schema) : Settles field.whole where
  isPlain hv haccepts := by
    rw [whole_dataOf hv]
    exact h.isPlain hv ((whole_accepts_iff_of_isPlain hv).1 haccepts)
  dataOf_dataOf hv haccepts := by
    rw [whole_accepts_iff_of_isPlain hv] at haccepts
    rw [whole_dataOf hv, whole_dataOf (h.isPlain hv haccepts), h.dataOf_dataOf hv haccepts]

/-- **A record schema settles** if the schemas of its fields do. -/
theorem record_settles (hknown : (known.map (·.key)).Nodup)
    (hproto : "__proto__" ∉ known.map (·.key)) (hreads : ∀ field ∈ known, ReadsByKey field.schema)
    (hsettles : ∀ field ∈ known, Settles field.schema) : Settles (record known) := by
  have hdata : ∀ {v}, v.IsPlain → (record known).Accepts v → ∃ fields, v = .record fields ∧
      (record known).dataOf v = .record (recordData known fields) ∧
      ∀ field ∈ known, ∀ x, Fields.get? fields field.key = some x →
        x.IsPlain ∧ field.whole.Accepts x := by
    intro v hv haccepts
    obtain ⟨fields, hfields, -, hat⟩ := record_accepts_iff.1 haccepts
    obtain rfl := hv.eq_record hfields
    refine ⟨fields, rfl, record_dataOf rfl fun field hfield ↦ (hat field hfield).hasVerdict,
      fun field hfield x hx ↦ ⟨hv.of_get? hx, ?_⟩⟩
    have haccepts := hat field hfield
    rwa [hx] at haccepts
  constructor
  · intro v hv haccepts
    obtain ⟨fields, rfl, hmade, hat⟩ := hdata hv haccepts
    rw [hmade]
    refine .record (fun entry hentry ↦ ?_) (nodup_keys_recordData hknown fields)
      fun h ↦ hproto (mem_keys_recordData h)
    obtain ⟨field, hfield, hsome⟩ := List.mem_filterMap.1 hentry
    obtain ⟨made, hmade, rfl⟩ := Option.map_eq_some_iff.1 hsome
    obtain ⟨x, hx, rfl⟩ := Option.map_eq_some_iff.1 hmade
    obtain ⟨hplain, haccepts⟩ := hat field hfield x hx
    exact (Field.whole_settles (hsettles field hfield)).isPlain hplain haccepts
  · intro v hv haccepts
    obtain ⟨fields, rfl, hmade, hat⟩ := hdata hv haccepts
    have hagain : (record known).Accepts (.record (recordData known fields)) :=
      hmade ▸ (record_readsByKey hknown hreads).accepts_dataOf haccepts
    rw [hmade, record_dataOf rfl (record_hasVerdict_iff.1 hagain.hasVerdict _ rfl)]
    refine congrArg Value.record (List.filterMap_congr fun field hfield ↦ ?_)
    rw [get?_recordData hknown hfield]
    cases hx : Fields.get? fields field.key with
    | none => rfl
    | some x =>
      obtain ⟨hplain, haccepts⟩ := hat field hfield x hx
      rw [Option.map_some, Option.map_some, Option.map_some, Option.map_some,
        (Field.whole_settles (hsettles field hfield)).dataOf_dataOf hplain haccepts]

end Schema

end ResourceLocator
