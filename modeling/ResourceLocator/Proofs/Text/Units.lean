import Mathlib.Data.List.Sort
import ResourceLocator.Text.Units

/-!
# The order of names

A text is determined by its units, because the first half of a surrogate pair is the unit of no
character (`units_injective`). So names that neither comes before the other in the order of units
are one name, and putting names in order loses none (`mem_sortNames_iff`). Names in order are
determined by which names they are (`pairwise_sortNames`).
-/

namespace ResourceLocator.Text

/-- The code of a character is none of a half of a surrogate pair. -/
theorem toNat_lt_or (c : Char) : c.toNat < 0xD800 ∨ 0xDFFF < c.toNat ∧ c.toNat < 0x110000 := c.valid

/-- **The units of a character end where those of the next begin.** -/
theorem charUnits_append_inj {c d : Char} {as bs : List Nat}
    (h : charUnits c ++ as = charUnits d ++ bs) : c = d ∧ as = bs := by
  have hc := toNat_lt_or c
  have hd := toNat_lt_or d
  have hcode : c.toNat = d.toNat → c = d := fun h ↦ Char.ext (UInt32.toNat_inj.1 h)
  unfold charUnits at h
  simp only at h
  split at h <;> split at h <;> simp only [List.cons_append, List.nil_append, List.cons.injEq] at h
  · exact ⟨hcode h.1, h.2⟩
  · omega
  · omega
  · exact ⟨hcode (by omega), h.2.2⟩

theorem charUnits_ne_nil (c : Char) : charUnits c ≠ [] := by
  unfold charUnits
  simp only
  split <;> exact List.cons_ne_nil _ _

theorem eq_of_flatMap_charUnits {cs ds : List Char}
    (h : cs.flatMap charUnits = ds.flatMap charUnits) : cs = ds := by
  induction cs generalizing ds with
  | nil => cases ds with
    | nil => rfl
    | cons d ds => exact absurd (List.append_eq_nil_iff.1 h.symm).1 (charUnits_ne_nil d)
  | cons c cs ih => cases ds with
    | nil => exact absurd (List.append_eq_nil_iff.1 h).1 (charUnits_ne_nil c)
    | cons d ds =>
      obtain ⟨rfl, hrest⟩ := charUnits_append_inj h
      rw [ih hrest]

theorem units_injective {s t : String} (h : units s = units t) : s = t :=
  String.toList_injective (eq_of_flatMap_charUnits h)

/-- Lists of units of which neither comes first are one. -/
theorem eq_of_unitsLt_eq_false {as bs : List Nat} (h : unitsLt as bs = false)
    (h' : unitsLt bs as = false) : as = bs := by
  induction as generalizing bs with
  | nil => cases bs with
    | nil => rfl
    | cons => cases h
  | cons a as ih => cases bs with
    | nil => cases h'
    | cons b bs =>
      simp only [unitsLt, Bool.or_eq_false_iff, decide_eq_false_iff_not, Bool.and_eq_false_iff,
        beq_eq_false_iff_ne] at h h'
      have hab : a = b := by omega
      subst hab
      rw [ih (h.2.resolve_left (by simp)) (h'.2.resolve_left (by simp))]

theorem mem_insertName_iff {name s : String} {names : List String} :
    name ∈ insertName s names ↔ name = s ∨ name ∈ names := by
  induction names with
  | nil => simp [insertName]
  | cons t ts ih =>
    rw [insertName]
    split
    · exact List.mem_cons
    · next hbefore =>
      split
      · rw [List.mem_cons, ih, List.mem_cons, or_left_comm]
      · next hafter =>
        -- The name is there already.
        obtain rfl := units_injective (eq_of_unitsLt_eq_false (Bool.of_not_eq_true hbefore)
          (Bool.of_not_eq_true hafter))
        rw [List.mem_cons, or_self_left]

/-- **Putting names in order loses none and adds none.** -/
theorem mem_sortNames_iff {name : String} {names : List String} :
    name ∈ sortNames names ↔ name ∈ names := by
  induction names with
  | nil => rfl
  | cons s names ih =>
    have hcons : sortNames (s :: names) = insertName s (sortNames names) := rfl
    rw [hcons, mem_insertName_iff, ih, List.mem_cons]

/-! ### Names in order -/

theorem unitsLt_self (as : List Nat) : unitsLt as as = false := by
  induction as with
  | nil => rfl
  | cons a as ih => simp [unitsLt, ih]

theorem unitsLt_trans {as bs cs : List Nat} (h : unitsLt as bs = true)
    (h' : unitsLt bs cs = true) : unitsLt as cs = true := by
  induction as generalizing bs cs with
  | nil => cases bs with
    | nil => cases h
    | cons b bs => cases cs with
      | nil => cases h'
      | cons c cs => rfl
  | cons a as ih => cases bs with
    | nil => cases h
    | cons b bs => cases cs with
      | nil => cases h'
      | cons c cs =>
        simp only [unitsLt, Bool.or_eq_true, decide_eq_true_eq, Bool.and_eq_true, beq_iff_eq]
          at h h' ⊢
        rcases h with h | ⟨rfl, h⟩ <;> rcases h' with h' | ⟨rfl, h'⟩
        · exact .inl (h.trans h')
        · exact .inl h
        · exact .inl h'
        · exact .inr ⟨rfl, ih h h'⟩

/-- A name comes before another in the order of units. -/
def NameLt (s t : String) : Prop := unitsLt (units s) (units t) = true

instance : Std.Irrefl NameLt := ⟨fun _ h ↦ Bool.false_ne_true ((unitsLt_self _).symm.trans h)⟩

instance : Std.Antisymm NameLt := ⟨fun _ _ h h' ↦
  absurd ((unitsLt_self _).symm.trans (unitsLt_trans h h')) Bool.false_ne_true⟩

theorem pairwise_insertName {names : List String} (h : names.Pairwise NameLt) (s : String) :
    (insertName s names).Pairwise NameLt := by
  induction names with
  | nil => exact List.pairwise_singleton _ _
  | cons t ts ih =>
    obtain ⟨hfirst, hrest⟩ := List.pairwise_cons.1 h
    rw [insertName]
    split
    · next hbefore =>
      refine List.pairwise_cons.2 ⟨fun name hname ↦ ?_, h⟩
      rcases List.mem_cons.1 hname with rfl | hname
      · exact hbefore
      · exact unitsLt_trans hbefore (hfirst name hname)
    · split
      · next hafter =>
        refine List.pairwise_cons.2 ⟨fun name hname ↦ ?_, ih hrest⟩
        rcases mem_insertName_iff.1 hname with rfl | hname
        · exact hafter
        · exact hfirst name hname
      · exact h

/-- **Names that have been put in order are in order**, and none is there twice. -/
theorem pairwise_sortNames (names : List String) : (sortNames names).Pairwise NameLt := by
  induction names with
  | nil => exact .nil
  | cons s names ih => exact pairwise_insertName ih s

end ResourceLocator.Text
