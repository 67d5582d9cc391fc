import ResourceLocator.Proofs.Text.Blank
import ResourceLocator.Proofs.Text.Pieces

/-!
# Lines with blanks at their ends

A line is a piece between two newlines, less the carriage return at its end. Since that is a blank,
the lines of a text and its pieces differ in blanks at their ends only (`map_trim_lines`), and so do
the pieces of a text with blanks at its end from those without (`map_trimEnd_pieces_append`).

Both are inductions on the text that need more than trimmed pieces: a character that is put in front
of a piece makes the blanks behind it part of the text. They are about pieces without the blanks at
their end, which determine what is left when a character is put in front of them.
-/

namespace ResourceLocator.Text

variable {sep : Char → Bool} {back cs : List Char} {c : Char}

/-- Whether a character is a newline. -/
def isNewline (c : Char) : Bool := c == '\n'

/-- What is left of a first piece with a character in front depends on what is left of the piece. -/
theorem map_trimEnd_modifyHead (c : Char) (ps : List (List Char)) :
    (ps.modifyHead (c :: ·)).map trimEnd =
      (ps.map trimEnd).modifyHead fun p ↦ trimEnd (c :: p) := by
  cases ps with
  | nil => rfl
  | cons p ps =>
    rw [List.modifyHead_cons, List.map_cons, List.map_cons, List.modifyHead_cons, trimEnd_cons]

/-- **Lines are pieces between newlines**, but for blanks at their end. -/
theorem map_trimEnd_lines (cs : List Char) :
    (lines cs).map trimEnd = (pieces isNewline cs).map trimEnd := by
  fun_induction lines cs with
  | case1 => rfl
  | case2 cs ih =>
    -- The carriage return is all there is of the first piece.
    have hpieces : pieces isNewline ('\r' :: '\n' :: cs) = ['\r'] :: pieces isNewline cs := rfl
    have hblank : trimEnd ['\r'] = trimEnd [] := by decide
    rw [hpieces, List.map_cons, List.map_cons, ih, hblank]
  | case3 c cs _ hc ih =>
    have hsep : isNewline c = true := hc
    rw [pieces, if_pos hsep, List.map_cons, List.map_cons, ih]
  | case4 c cs _ hc ih =>
    have hsep : isNewline c = false := Bool.eq_false_iff.2 hc
    rw [pieces_cons_of_not_sep hsep, map_trimEnd_modifyHead, map_trimEnd_modifyHead, ih]

/-- What is left of a text at both ends depends on what is left of it at its end. -/
theorem map_trim_congr {ps qs : List (List Char)} (h : ps.map trimEnd = qs.map trimEnd) :
    ps.map trim = qs.map trim := by
  have hmap : ∀ ps : List (List Char), ps.map trim = (ps.map trimEnd).map trim := by
    intro ps
    rw [List.map_map]
    exact List.map_congr_left fun p _ ↦ (trim_trimEnd p).symm
  rw [hmap ps, h, ← hmap qs]

theorem map_trim_lines (cs : List Char) :
    (lines cs).map trim = (pieces isNewline cs).map trim :=
  map_trim_congr (map_trimEnd_lines cs)

/-- **Blanks at the start of a text** are at the start of its first piece, if none of them is a
separator. -/
theorem map_trim_pieces_append {front : List Char} (hfront : IsGap front)
    (hsep : ∀ c ∈ front, sep c = false) (cs : List Char) :
    (pieces sep (front ++ cs)).map trim = (pieces sep cs).map trim := by
  induction front with
  | nil => rfl
  | cons c front ih =>
    have hc : isBlank c = true := hfront c List.mem_cons_self
    have hhead : ∀ p, trim (c :: p) = trim p := fun p ↦ by
      rw [trim, List.dropWhile_cons_of_pos hc, trim]
    rw [List.cons_append, pieces_cons_of_not_sep (hsep c List.mem_cons_self),
      ← ih (fun d hd ↦ hfront d (List.mem_cons_of_mem c hd))
        fun d hd ↦ hsep d (List.mem_cons_of_mem c hd)]
    cases pieces sep (front ++ cs) with
    | nil => rfl
    | cons p ps => rw [List.modifyHead_cons, List.map_cons, List.map_cons, hhead]

/-- **Blanks at the end of a text** are at the end of its last piece, if none of them is a
separator. -/
theorem map_trimEnd_pieces_append (hback : IsGap back) (hsep : ∀ c ∈ back, sep c = false)
    (cs : List Char) : (pieces sep (cs ++ back)).map trimEnd = (pieces sep cs).map trimEnd := by
  induction cs with
  | nil =>
    have hblank : trimEnd back = trimEnd [] := trimEnd_append hback []
    rw [List.nil_append, pieces_eq_singleton hsep, List.map_singleton, hblank]
    rfl
  | cons c cs ih =>
    rw [List.cons_append]
    cases hc : sep c with
    | true => rw [pieces, pieces, if_pos hc, if_pos hc, List.map_cons, List.map_cons, ih]
    | false =>
      rw [pieces_cons_of_not_sep hc, pieces_cons_of_not_sep hc, map_trimEnd_modifyHead,
        map_trimEnd_modifyHead, ih]

end ResourceLocator.Text
