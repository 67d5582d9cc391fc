/-!
# First occurrences

`List.eraseDups` keeps the first occurrence of each item. It commutes with leaving items out
(`eraseDups_filter`), and it puts the items in the order of their first positions
(`pairwise_idxOf_eraseDups`), each once.
-/

namespace ResourceLocator

variable {α : Type} [BEq α] [LawfulBEq α]

/-- What has not come before has its first position here, and what comes neither before nor here has
it later. -/
theorem idxOf_lt_idxOf {before rest : List α} {a b : α} (ha : a ∉ before) (hb : b ∉ before)
    (hne : b ≠ a) : (before ++ a :: rest).idxOf a < (before ++ a :: rest).idxOf b := by
  induction before with
  | nil =>
    rw [List.nil_append, List.idxOf_cons_self, List.idxOf_cons, beq_eq_false_iff_ne.2 (Ne.symm hne)]
    exact Nat.succ_pos _
  | cons x before ih =>
    rw [List.mem_cons, not_or] at ha hb
    rw [List.cons_append, List.idxOf_cons, List.idxOf_cons, beq_eq_false_iff_ne.2 (Ne.symm ha.1),
      beq_eq_false_iff_ne.2 (Ne.symm hb.1)]
    exact Nat.succ_lt_succ (ih ha.2 hb.2)

/-- **Leaving items out commutes with leaving repetitions out.** -/
theorem eraseDups_filter (p : α → Bool) :
    ∀ l : List α, (l.filter p).eraseDups = l.eraseDups.filter p
  | [] => rfl
  | x :: xs => by
    have hothers := eraseDups_filter p (xs.filter fun y ↦ !y == x)
    rw [List.eraseDups_cons]
    cases hx : p x with
    | true =>
      have hcomm : (xs.filter p).filter (fun y ↦ !y == x) =
          (xs.filter fun y ↦ !y == x).filter p := by
        rw [List.filter_filter, List.filter_filter]
        exact List.filter_congr fun y _ ↦ Bool.and_comm _ _
      rw [List.filter_cons_of_pos hx, List.eraseDups_cons, hcomm, hothers,
        List.filter_cons_of_pos hx]
    | false =>
      -- An item that is left out anyway takes no other one with it.
      have hsame : (xs.filter fun y ↦ !y == x).filter p = xs.filter p := by
        rw [List.filter_filter]
        refine List.filter_congr fun y _ ↦ ?_
        by_cases hyx : y = x
        · simp [hyx, hx]
        · simp [hyx]
      rw [List.filter_cons_of_neg (by simp [hx]), List.filter_cons_of_neg (by simp [hx]), ← hothers,
        hsame]
termination_by l => l.length
decreasing_by exact Nat.lt_succ_of_le (List.length_filter_le _ _)

/-- **What is left stands in the order of its first positions.** -/
theorem pairwise_idxOf_eraseDups (l : List α) :
    l.eraseDups.Pairwise fun a b ↦ l.idxOf a < l.idxOf b := by
  induction l with
  | nil => exact .nil
  | cons x xs ih =>
    have hothers : ∀ y ∈ xs.eraseDups.filter (fun y ↦ !y == x),
        (x :: xs).idxOf y = xs.idxOf y + 1 := by
      intro y hy
      have hne : y ≠ x := by simpa using (List.mem_filter.1 hy).2
      rw [List.idxOf_cons, beq_eq_false_iff_ne.2 (Ne.symm hne), cond_false]
    rw [List.eraseDups_cons, eraseDups_filter, List.pairwise_cons]
    refine ⟨fun y hy ↦ ?_, (ih.filter _).imp_of_mem fun {a b} ha hb hab ↦ ?_⟩
    · rw [List.idxOf_cons_self, hothers y hy]
      exact Nat.succ_pos _
    · rw [hothers a ha, hothers b hb]
      exact Nat.succ_lt_succ hab

theorem nodup_eraseDups (l : List α) : l.eraseDups.Nodup :=
  (pairwise_idxOf_eraseDups l).imp fun {a b} h hsame ↦ by
    rw [hsame] at h
    exact Nat.lt_irrefl _ h

/-- Without repetitions there is nothing to leave out. -/
theorem eraseDups_of_nodup {l : List α} (h : l.Nodup) : l.eraseDups = l := by
  induction l with
  | nil => rfl
  | cons x xs ih =>
    obtain ⟨hx, hxs⟩ := List.nodup_cons.1 h
    have hall : xs.filter (fun y ↦ !y == x) = xs :=
      List.filter_eq_self.2 fun y hy ↦ by
        have hne : y ≠ x := fun hyx ↦ hx (hyx ▸ hy)
        simpa using hne
    rw [List.eraseDups_cons, hall, ih hxs]

end ResourceLocator
