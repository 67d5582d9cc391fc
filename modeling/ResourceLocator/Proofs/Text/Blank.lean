import Mathlib.Data.List.DropRight
import ResourceLocator.Text.Blank

/-!
# Blanks around a text

A text is its trimmed text with blanks around it (`exists_trim`), and blanks that are put around a
text are gone when it is trimmed (`trim_append`). So trimming is undone and done again by any
blanks, and a text that neither starts nor ends with one is trimmed already (`trim_of_isTrimmed`).
-/

namespace ResourceLocator.Text

variable {front back cs : List Char} {c : Char}

/-- A text of blanks only, or of nothing. -/
def IsGap (cs : List Char) : Prop := ∀ c ∈ cs, isBlank c = true

theorem IsGap.nil : IsGap [] := fun _ h ↦ absurd h List.not_mem_nil

/-- A text that neither starts nor ends with a blank. -/
structure IsTrimmed (cs : List Char) : Prop where
  /-- It does not start with a blank. -/
  head : ∀ c ∈ cs.head?, isBlank c = false
  /-- It does not end with a blank. -/
  last : ∀ c ∈ cs.getLast?, isBlank c = false

theorem trimEnd_eq_rdropWhile (cs : List Char) : trimEnd cs = cs.rdropWhile isBlank := rfl

/-- Blanks at the end are gone. -/
theorem trimEnd_append (hback : IsGap back) (cs : List Char) :
    trimEnd (cs ++ back) = trimEnd cs := by
  have hreverse : ∀ c ∈ back.reverse, isBlank c = true := fun c hc ↦ hback c (List.mem_reverse.1 hc)
  rw [trimEnd, List.reverse_append, List.dropWhile_append_of_pos hreverse, trimEnd]

/-- A text is what is left of it with blanks at its end. -/
theorem exists_trimEnd (cs : List Char) : ∃ back, IsGap back ∧ cs = trimEnd cs ++ back :=
  ⟨cs.rtakeWhile isBlank, fun _ hc ↦ List.mem_rtakeWhile_imp hc,
    (List.rdropWhile_append_rtakeWhile).symm⟩

/-- Blanks at the end do not count, whatever is put in front of the text. -/
theorem trimEnd_cons (c : Char) (cs : List Char) :
    trimEnd (c :: cs) = trimEnd (c :: trimEnd cs) := by
  obtain ⟨back, hback, hcs⟩ := exists_trimEnd cs
  have hcons : c :: cs = (c :: trimEnd cs) ++ back := congrArg (c :: ·) hcs
  rw [hcons, trimEnd_append hback]

/-- **Blanks around a text are gone when it is trimmed.** -/
theorem trim_append (hfront : IsGap front) (hback : IsGap back) (cs : List Char) :
    trim (front ++ cs ++ back) = trim cs := by
  rw [trim, List.append_assoc, List.dropWhile_append_of_pos hfront, List.dropWhile_append]
  split
  · next hempty =>
    -- The text has blanks only, and so does what is put behind it.
    have hblank : back.dropWhile isBlank = [] := List.dropWhile_eq_nil_iff.2 hback
    rw [hblank, trim, List.isEmpty_iff.1 hempty]
  · rw [trimEnd_append hback, trim]

theorem trim_trimEnd (cs : List Char) : trim (trimEnd cs) = trim cs := by
  obtain ⟨back, hback, hcs⟩ := exists_trimEnd cs
  have happend := trim_append IsGap.nil hback (trimEnd cs)
  rw [List.nil_append, ← hcs] at happend
  exact happend.symm

/-- **A text is its trimmed text with blanks around it.** -/
theorem exists_trim (cs : List Char) :
    ∃ front back, IsGap front ∧ IsGap back ∧ cs = front ++ trim cs ++ back := by
  obtain ⟨back, hback, hdropped⟩ := exists_trimEnd (cs.dropWhile isBlank)
  refine ⟨cs.takeWhile isBlank, back, fun c hc ↦ List.mem_takeWhile_imp hc, hback, ?_⟩
  rw [List.append_assoc, trim, ← hdropped, List.takeWhile_append_dropWhile]

theorem isTrimmed_trim (cs : List Char) : IsTrimmed (trim cs) := by
  constructor
  · intro c hc
    obtain ⟨rest, hrest⟩ : trim cs <+: cs.dropWhile isBlank := List.rdropWhile_prefix isBlank _
    have hhead : (cs.dropWhile isBlank).head? = some c := by
      rw [← hrest, List.head?_append, Option.mem_def.1 hc, Option.some_or]
    have hdropped := List.head?_dropWhile_not isBlank cs
    rwa [hhead] at hdropped
  · intro c hc
    obtain ⟨hne, rfl⟩ := List.mem_getLast?_eq_getLast hc
    exact Bool.of_not_eq_true (List.rdropWhile_last_not isBlank _ hne)

/-- **A text without blanks at its ends is trimmed.** -/
theorem trim_of_isTrimmed (h : IsTrimmed cs) : trim cs = cs := by
  have hdrop : cs.dropWhile isBlank = cs := by
    cases cs with
    | nil => rfl
    | cons c cs => exact List.dropWhile_cons_of_neg (by simp [h.head c rfl])
  rw [trim, hdrop, trimEnd_eq_rdropWhile, List.rdropWhile_eq_self_iff]
  intro hne
  simp [h.last _ (List.getLast?_eq_getLast_of_ne_nil hne)]

/-- A trimmed text with blanks around it is trimmed to itself. -/
theorem trim_eq_of_isTrimmed (hfront : IsGap front) (hback : IsGap back) (h : IsTrimmed cs) :
    trim (front ++ cs ++ back) = cs := by
  rw [trim_append hfront hback, trim_of_isTrimmed h]

/-- A trimmed text starts with the first character that is no blank. -/
theorem head?_trim (cs : List Char) : (trim cs).head? = cs.find? (!isBlank ·) := by
  obtain ⟨front, back, hfront, hback, hcs⟩ := exists_trim cs
  have hnone : ∀ {gap : List Char}, IsGap gap → gap.find? (!isBlank ·) = none := fun hgap ↦
    List.find?_eq_none.2 fun c hc ↦ by simp [hgap c hc]
  conv_rhs => rw [hcs, List.find?_append, List.find?_append, hnone hfront, hnone hback,
    Option.none_or, Option.or_none]
  cases hhead : trim cs with
  | nil => rfl
  | cons c rest =>
    have hc : isBlank c = false := (isTrimmed_trim cs).head c (by rw [hhead]; rfl)
    rw [List.head?_cons, List.find?_cons_of_pos (by simp [hc])]

end ResourceLocator.Text
