import ResourceLocator.Proofs.Value.Fields

/-!
# Values that read alike

Two records with the same at each key may still differ, in the order of their fields; and an error
may have the fields of a record. Such values are *alike*, and so are records with alike values at
each key. Whatever is read of a value key by key is the same of alike values. A value that does not
read as a record is alike to itself only (`Alike.eq_of_fields?_eq_none`).
-/

namespace ResourceLocator

namespace Value

/-- Two values are the same, or read as records that have alike values at the same keys. -/
inductive Alike : Value → Value → Prop where
  /-- The same value. -/
  | same (v : Value) : Alike v v
  /-- Two records. -/
  | records {v w : Value} {f g : Fields} (hv : v.fields? = some f) (hw : w.fields? = some g)
    (hkeys : ∀ key, (Fields.get? f key).isSome = (Fields.get? g key).isSome)
    (hat : ∀ key a b, Fields.get? f key = some a → Fields.get? g key = some b → Alike a b) :
    Alike v w

/-- What may be absent is alike. -/
abbrev AlikeOption : Option Value → Option Value → Prop := Option.Rel Alike

variable {v w : Value} {f g : Fields}

theorem AlikeOption.refl (a : Option Value) : AlikeOption a a := by
  cases a with
  | none => exact .none
  | some v => exact .some (.same v)

theorem alikeOption_iff {a b : Option Value} :
    AlikeOption a b ↔ a.isSome = b.isSome ∧ ∀ x y, a = some x → b = some y → Alike x y := by
  constructor
  · rintro (hxy | _)
    · exact ⟨rfl, fun x y hx hy ↦ Option.some.inj hx ▸ Option.some.inj hy ▸ hxy⟩
    · exact ⟨rfl, fun x y hx ↦ by cases hx⟩
  · rintro ⟨hsome, h⟩
    cases a <;> cases b
    · exact .none
    · cases hsome
    · cases hsome
    · exact .some (h _ _ rfl rfl)

theorem Alike.symm (h : Alike v w) : Alike w v := by
  induction h with
  | same v => exact .same v
  | records hv hw hkeys _ ih =>
    exact .records hw hv (fun key ↦ (hkeys key).symm) fun key a b ha hb ↦ ih key b a hb ha

theorem AlikeOption.symm {a b : Option Value} (h : AlikeOption a b) : AlikeOption b a := by
  cases h with
  | none => exact .none
  | some h => exact .some h.symm

/-- **Records are alike** if what they have at each key is. -/
theorem Alike.of_forall (hv : v.fields? = some f) (hw : w.fields? = some g)
    (h : ∀ key, AlikeOption (Fields.get? f key) (Fields.get? g key)) : Alike v w :=
  .records hv hw (fun key ↦ (alikeOption_iff.1 (h key)).1) fun key ↦ (alikeOption_iff.1 (h key)).2

theorem Alike.get? (h : Alike v w) (hv : v.fields? = some f) (hw : w.fields? = some g)
    (key : String) : AlikeOption (Fields.get? f key) (Fields.get? g key) := by
  cases h with
  | same =>
    obtain rfl : f = g := Option.some.inj (hv.symm.trans hw)
    exact AlikeOption.refl _
  | records hv' hw' hkeys hat =>
    rw [hv] at hv'
    rw [hw] at hw'
    cases hv'
    cases hw'
    exact alikeOption_iff.2 ⟨hkeys key, hat key⟩

/-- Alike values both read as records or are the same. -/
theorem Alike.eq_of_fields?_eq_none (h : Alike v w) (hv : v.fields? = none) : v = w := by
  cases h with
  | same => rfl
  | records hv' => rw [hv] at hv'; cases hv'

theorem Alike.exists_fields? (h : Alike v w) (hv : v.fields? = some f) :
    ∃ g, w.fields? = some g := by
  cases h with
  | same => exact ⟨f, hv⟩
  | records _ hw => exact ⟨_, hw⟩

theorem Alike.trans {x : Value} (h : Alike v w) (h' : Alike w x) : Alike v x := by
  induction h generalizing x with
  | same => exact h'
  | records hv hw hkeys hat ih =>
    obtain ⟨f', hx⟩ := h'.exists_fields? hw
    refine .records hv hx (fun key ↦ (hkeys key).trans (alikeOption_iff.1 (h'.get? hw hx key)).1)
      fun key a c ha hc ↦ ?_
    have hsome := hkeys key
    rw [ha, Option.isSome_some, eq_comm, Option.isSome_iff_exists] at hsome
    obtain ⟨b, hb⟩ := hsome
    exact ih key a b ha hb ((alikeOption_iff.1 (h'.get? hw hx key)).2 b c hb hc)

/-! ### What may be absent -/

namespace AlikeOption

variable {a b c : Option Value}

theorem trans (h : AlikeOption a b) (h' : AlikeOption b c) : AlikeOption a c := by
  cases h with
  | none => exact h'
  | some h => cases h' with
    | some h' => exact .some (h.trans h')

theorem or {a' b' : Option Value} (h : AlikeOption a b) (h' : AlikeOption a' b') :
    AlikeOption (a.or a') (b.or b') := by
  cases h with
  | none => exact h'
  | some h => exact .some h

/-- A value that does not read as a record has no other value that is alike. -/
theorem eq_some (h : AlikeOption a b) (ha : a = some v) (hv : v.fields? = none) : b = some v := by
  subst ha
  cases h with
  | some h => rw [h.eq_of_fields?_eq_none hv]

/-- What is absent is alike to what is absent. -/
theorem getD_eq_undefined (h : AlikeOption a b) (ha : a.getD .undefined = .undefined) :
    b.getD .undefined = .undefined := by
  cases h with
  | none => rfl
  | @some v w h =>
    obtain rfl : v = .undefined := ha
    exact (h.eq_of_fields?_eq_none rfl).symm

end AlikeOption

/-- What a value has at a key, if there is a value and it reads as a record. -/
def at? (v : Option Value) (key : String) : Option Value :=
  Fields.get? ((v.bind fields?).getD []) key

theorem AlikeOption.at? {a b : Option Value} (h : AlikeOption a b) (key : String) :
    AlikeOption (Value.at? a key) (Value.at? b key) := by
  cases h with
  | none => exact AlikeOption.refl _
  | @some v w h =>
    unfold Value.at?
    rw [Option.bind_some, Option.bind_some]
    cases hv : v.fields? with
    | none =>
      rw [← h.eq_of_fields?_eq_none hv, hv]
      exact AlikeOption.refl _
    | some f =>
      obtain ⟨g, hg⟩ := h.exists_fields? hv
      rw [hg]
      exact h.get? hv hg key

end Value

end ResourceLocator
