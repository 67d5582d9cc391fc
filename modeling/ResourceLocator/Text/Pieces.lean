/-!
# Cutting a text into pieces

A text is cut at the characters that a class of separators holds of. `pieces` keeps every
piece, the empty ones too, so that a text with `n` separators has `n + 1` pieces; `runs`
keeps the maximal stretches of characters of a class and nothing else. Two ways of cutting take
more than one character for a cut: `cut` a stretch of separators, and `lines` a newline with the
carriage return before it.

`pieces_append_cons` says that a separator cuts a text into two that are cut independently.
-/

namespace ResourceLocator.Text

/-- The pieces of a text between the characters that `sep` holds of. -/
def pieces (sep : Char → Bool) : List Char → List (List Char)
  | [] => [[]]
  | c :: cs =>
    if sep c then [] :: pieces sep cs
    else match pieces sep cs with
      | [] => [[c]]
      | p :: ps => (c :: p) :: ps

/-- The maximal stretches of characters that `keep` holds of. -/
def runs (keep : Char → Bool) (cs : List Char) : List (List Char) :=
  (pieces (fun c ↦ !keep c) cs).filter (!·.isEmpty)

/-- The pieces of a text between its stretches of separators. A separator behind another one cuts
no more; `isInGap` says whether there is one before the text. -/
def cutFrom (sep : Char → Bool) (isInGap : Bool) : List Char → List (List Char)
  | [] => [[]]
  | c :: cs =>
    if !sep c then (cutFrom sep false cs).modifyHead (c :: ·)
    else if isInGap then cutFrom sep true cs
    else [] :: cutFrom sep true cs

/-- The pieces of a text between its maximal stretches of separators. A stretch at either end of
the text leaves an empty piece there. -/
def cut (sep : Char → Bool) (cs : List Char) : List (List Char) :=
  cutFrom sep false cs

/-- The lines of a text: its pieces between newlines. A carriage return right before a newline is
no part of the line. -/
def lines : List Char → List (List Char)
  | [] => [[]]
  | '\r' :: '\n' :: cs => [] :: lines cs
  | c :: cs => if c == '\n' then [] :: lines cs else (lines cs).modifyHead (c :: ·)

/-- `pieces` of a string, as strings. -/
def split (sep : Char → Bool) (s : String) : List String :=
  (pieces sep s.toList).map String.ofList

theorem pieces_ne_nil (sep : Char → Bool) (cs : List Char) : pieces sep cs ≠ [] := by
  cases cs with
  | nil => simp [pieces]
  | cons c cs =>
    simp only [pieces]
    split
    · simp
    · split <;> simp

/-- A separator cuts a text into two that are cut independently. -/
theorem pieces_append_cons {sep : Char → Bool} {c : Char} (h : sep c = true)
    (as bs : List Char) : pieces sep (as ++ c :: bs) = pieces sep as ++ pieces sep bs := by
  induction as with
  | nil => simp [pieces, h]
  | cons a as ih =>
    simp only [List.cons_append, pieces, ih]
    split
    · rfl
    · cases hp : pieces sep as with
      | nil => exact absurd hp (pieces_ne_nil sep as)
      | cons p ps => rfl

/-- A text without separators is one piece. -/
theorem pieces_eq_singleton {sep : Char → Bool} {cs : List Char}
    (h : ∀ c ∈ cs, sep c = false) : pieces sep cs = [cs] := by
  induction cs with
  | nil => rfl
  | cons c cs ih =>
    have hc : sep c = false := h c (by simp)
    have hcs := ih fun d hd ↦ h d (by simp [hd])
    simp [pieces, hc, hcs]

end ResourceLocator.Text
