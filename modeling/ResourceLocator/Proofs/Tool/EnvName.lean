import ResourceLocator.Proofs.Text.Pieces
import ResourceLocator.Tool.Basic

/-!
# What a segment looks like

Collapsing and stripping leave the runs of letters and digits with one underscore between two of
them (`stripEnds_collapseFrom`). So a segment of a variable name is empty or made of words, which
are capitals and digits, with one underscore between two of them (`IsWords`,
`segmentChars_eq_nil_or_isWords`). It is empty if the name has no ASCII letter and no digit, and
otherwise it starts with the first of them, as a capital (`head?_segmentChars`).

So the one thing that a segment may lack of a well-formed name is a letter at the start
(`isWellFormed_segment_iff`). What is put after it does not help where the segment starts with a
digit, and is enough where it is empty (`isWellFormed_segment_append_iff`).
-/

namespace ResourceLocator.EnvName

variable {name suffix : String} {c : Char} {cs : List Char} {letter : Char → Bool}

/-! ### Characters -/

/-- A capital or a digit. -/
def isCapital (c : Char) : Bool := c.isUpper || c.isDigit

/-- A character that a well-formed name may have. -/
def isNameChar (c : Char) : Bool := c.isUpper || c.isDigit || c == '_'

theorem isNameChar_of_isCapital (h : isCapital c = true) : isNameChar c = true := by
  rw [isNameChar, ← isCapital, h, Bool.true_or]

theorem isAlphanumeric_of_isCapital (h : isCapital c = true) : isAlphanumeric c = true :=
  Bool.or_eq_true_iff.2 <| (Bool.or_eq_true_iff.1 h).imp_left fun hupper ↦
    Bool.or_eq_true_iff.2 (.inl hupper)

theorem isAlphanumeric_underscore : isAlphanumeric '_' = false := by decide

theorem isUpper_iff (c : Char) : c.isUpper = true ↔ 65 ≤ c.toNat ∧ c.toNat ≤ 90 :=
  decide_eq_true_iff

theorem isLower_iff (c : Char) : c.isLower = true ↔ 97 ≤ c.toNat ∧ c.toNat ≤ 122 :=
  Bool.and_eq_true_iff.trans (and_congr decide_eq_true_iff decide_eq_true_iff)

/-- Letters and digits are ASCII characters. -/
theorem toNat_lt_of_isAlphanumeric (h : isAlphanumeric c = true) : c.toNat < 128 := by
  rcases Bool.or_eq_true_iff.1 h with halpha | hdigit
  · rcases Bool.or_eq_true_iff.1 halpha with hupper | hlower
    · exact Nat.lt_of_le_of_lt ((isUpper_iff c).1 hupper).2 (by decide)
    · exact Nat.lt_of_le_of_lt ((isLower_iff c).1 hlower).2 (by decide)
  · exact Nat.lt_of_le_of_lt (Char.isDigit_iff_toNat.1 hdigit).2 (by decide)

theorem toNat_lt_of_isNameChar (h : isNameChar c = true) : c.toNat < 128 := by
  rw [isNameChar, ← isCapital, Bool.or_eq_true, beq_iff_eq] at h
  rcases h with hcapital | rfl
  · exact toNat_lt_of_isAlphanumeric (isAlphanumeric_of_isCapital hcapital)
  · decide

/-- What holds of the first 128 characters holds of each ASCII character. -/
theorem forall_ascii {p : Char → Prop} (h : ∀ n < 128, p (Char.ofNat n)) (hc : c.toNat < 128) :
    p c := by
  have hp := h c.toNat hc
  rwa [Char.ofNat_toNat] at hp

theorem isCapital_toUpper (h : isAlphanumeric c = true) : isCapital c.toUpper = true :=
  forall_ascii (p := fun c ↦ isAlphanumeric c = true → isCapital c.toUpper = true)
    (by decide +kernel) (toNat_lt_of_isAlphanumeric h) h

theorem isDigit_toUpper (h : isAlphanumeric c = true) : c.toUpper.isDigit = c.isDigit :=
  forall_ascii (p := fun c ↦ isAlphanumeric c = true → c.toUpper.isDigit = c.isDigit)
    (by decide +kernel) (toNat_lt_of_isAlphanumeric h) h

theorem isAlpha_eq_not_isDigit (h : isAlphanumeric c = true) : c.isAlpha = !c.isDigit :=
  forall_ascii (p := fun c ↦ isAlphanumeric c = true → c.isAlpha = !c.isDigit)
    (by decide +kernel) (toNat_lt_of_isAlphanumeric h) h

theorem isAlphanumeric_toLower (h : isCapital c = true) : isAlphanumeric c.toLower = true :=
  forall_ascii (p := fun c ↦ isCapital c = true → isAlphanumeric c.toLower = true)
    (by decide +kernel) (toNat_lt_of_isAlphanumeric (isAlphanumeric_of_isCapital h)) h

/-- A name has no small letters. -/
theorem isLower_of_isNameChar (h : isNameChar c = true) :
    c.isLower = false ∧ c.isAlpha = c.isUpper :=
  forall_ascii (p := fun c ↦ isNameChar c = true → c.isLower = false ∧ c.isAlpha = c.isUpper)
    (by decide +kernel) (toNat_lt_of_isNameChar h) h

theorem toUpper_of_isNameChar (h : isNameChar c = true) : c.toUpper = c :=
  forall_ascii (p := fun c ↦ isNameChar c = true → c.toUpper = c)
    (by decide +kernel) (toNat_lt_of_isNameChar h) h

theorem isUpper_toLower_of_isNameChar (h : isNameChar c = true) : c.toLower.isUpper = false :=
  forall_ascii (p := fun c ↦ isNameChar c = true → c.toLower.isUpper = false)
    (by decide +kernel) (toNat_lt_of_isNameChar h) h

theorem toUpper_toLower_of_isNameChar (h : isNameChar c = true) : c.toLower.toUpper = c :=
  forall_ascii (p := fun c ↦ isNameChar c = true → c.toLower.toUpper = c)
    (by decide +kernel) (toNat_lt_of_isNameChar h) h

/-! ### Words -/

/-- Words of letters, with one underscore between two of them. -/
inductive IsWords (letter : Char → Bool) : List Char → Prop where
  /-- A single letter. -/
  | single {c : Char} (h : letter c = true) : IsWords letter [c]
  /-- A letter before the first word. -/
  | cons {c : Char} {cs : List Char} (h : letter c = true) (hcs : IsWords letter cs) :
    IsWords letter (c :: cs)
  /-- A word of one letter before the first word. -/
  | word {c : Char} {cs : List Char} (h : letter c = true) (hcs : IsWords letter cs) :
    IsWords letter (c :: '_' :: cs)

/-- Words may be rewritten letter by letter. -/
theorem IsWords.map {letter' : Char → Bool} {f : Char → Char} (h : IsWords letter cs)
    (hf : ∀ c, letter c = true → letter' (f c) = true) (hunderscore : f '_' = '_') :
    IsWords letter' (cs.map f) := by
  induction h with
  | single h => exact .single (hf _ h)
  | cons h _ ih => exact .cons (hf _ h) ih
  | word h _ ih =>
    rw [List.map_cons, List.map_cons, hunderscore]
    exact .word (hf _ h) ih

theorem IsWords.all_isNameChar (h : IsWords isCapital cs) : cs.all isNameChar = true := by
  induction h with
  | single h => simp [isNameChar_of_isCapital h]
  | cons h _ ih => simp [isNameChar_of_isCapital h, ih]
  | word h _ ih =>
    have hunderscore : isNameChar '_' = true := by decide
    simp [isNameChar_of_isCapital h, hunderscore, ih]

/-- The last character of words is a letter. -/
theorem IsWords.exists_concat (h : IsWords letter cs) :
    ∃ before last, cs = before ++ [last] ∧ letter last = true := by
  induction h with
  | single h => exact ⟨[], _, rfl, h⟩
  | @cons c cs _ _ ih =>
    obtain ⟨before, last, rfl, hlast⟩ := ih
    exact ⟨c :: before, last, rfl, hlast⟩
  | @word c cs _ _ ih =>
    obtain ⟨before, last, rfl, hlast⟩ := ih
    exact ⟨c :: '_' :: before, last, rfl, hlast⟩

/-- **Texts of letters with underscores between them** are words. -/
theorem isWords_intercalate {texts : List (List Char)} (hne : texts ≠ [])
    (htexts : ∀ text ∈ texts, text ≠ [] ∧ ∀ c ∈ text, letter c = true) :
    IsWords letter (['_'].intercalate texts) := by
  induction texts with
  | nil => exact absurd rfl hne
  | cons text texts ih =>
    obtain ⟨⟨htext, hletters⟩, hrest⟩ := List.forall_mem_cons.1 htexts
    clear htexts hne
    -- The first text goes letter by letter; its last letter ends the word, or all of them.
    induction text with
    | nil => exact absurd rfl htext
    | cons c text ihText =>
      obtain ⟨hc, hmore⟩ := List.forall_mem_cons.1 hletters
      rw [List.intercalate_cons_cons_left]
      cases text with
      | cons d text => exact .cons hc (ihText (List.cons_ne_nil d text) hmore)
      | nil =>
        cases texts with
        | nil => exact .single hc
        | cons next texts =>
          rw [List.intercalate_cons_cons]
          exact .word hc (ih (List.cons_ne_nil next texts) hrest)

/-- Words are texts of letters with underscores between them. -/
theorem IsWords.exists_intercalate (h : IsWords letter cs) :
    ∃ texts, (∀ text ∈ texts, text ≠ [] ∧ ∀ c ∈ text, letter c = true) ∧
      cs = ['_'].intercalate texts ∧ texts ≠ [] := by
  induction h with
  | @single c h =>
    exact ⟨[[c]], by simpa using h, (List.intercalate_singleton).symm, List.cons_ne_nil _ _⟩
  | @cons c cs h _ ih =>
    obtain ⟨texts, htexts, rfl, hne⟩ := ih
    obtain ⟨text, texts, rfl⟩ := List.exists_cons_of_ne_nil hne
    rw [List.forall_mem_cons] at htexts
    refine ⟨(c :: text) :: texts, ?_, (List.intercalate_cons_cons_left).symm,
      List.cons_ne_nil _ _⟩
    exact List.forall_mem_cons.2 ⟨⟨List.cons_ne_nil _ _, List.forall_mem_cons.2 ⟨h, htexts.1.2⟩⟩,
      htexts.2⟩
  | @word c cs h _ ih =>
    obtain ⟨texts, htexts, rfl, hne⟩ := ih
    refine ⟨[c] :: texts, List.forall_mem_cons.2 ⟨by simpa using h, htexts⟩, ?_,
      List.cons_ne_nil _ _⟩
    rw [List.intercalate_cons_of_ne_nil hne]
    rfl

/-! ### The four passes -/

/-- An underscore in a hump does not change which letter or digit is the first. -/
theorem find?_separateHumps (cs : List Char) :
    (separateHumps cs).find? isAlphanumeric = cs.find? isAlphanumeric := by
  induction cs using separateHumps.induct with
  | case1 a b rest hhump ih =>
    rw [separateHumps, if_pos hhump, List.find?_cons, List.find?_cons, isAlphanumeric_underscore,
      ih, ← List.find?_cons]
  | case2 a b rest hhump ih =>
    rw [separateHumps, if_neg hhump, List.find?_cons, ih, ← List.find?_cons]
  | case3 cs hshort =>
    rw [separateHumps]
    exact hshort

/-- After a run has begun, the first character is the first letter or digit. -/
theorem head?_collapseFrom (cs : List Char) :
    (collapseFrom true cs).head? = cs.find? isAlphanumeric := by
  induction cs with
  | nil => rfl
  | cons c cs ih =>
    rw [collapseFrom, List.find?_cons]
    by_cases hc : isAlphanumeric c
    · simp [hc]
    · simp [hc, ih]

theorem stripStart_of_isAlphanumeric (h : isAlphanumeric c = true) (cs : List Char) :
    stripStart (c :: cs) = c :: cs := by
  have hne : c ≠ '_' := by
    rintro rfl
    exact absurd h (by decide)
  rw [stripStart]
  simpa using hne

/-- An underscore at the start stands for a run at the start. -/
theorem stripStart_collapseFrom (cs : List Char) :
    stripStart (collapseFrom false cs) = collapseFrom true cs := by
  cases cs with
  | nil => rfl
  | cons c cs =>
    rw [collapseFrom, collapseFrom]
    by_cases hc : isAlphanumeric c
    · rw [if_pos hc, if_pos hc, stripStart_of_isAlphanumeric hc]
    · simp [hc, stripStart]

/-- Before a run that begins there is one more underscore. -/
theorem collapseFrom_false (cs : List Char) : collapseFrom false cs =
    if cs.head?.all isAlphanumeric then collapseFrom true cs else '_' :: collapseFrom true cs := by
  cases cs with
  | nil => rfl
  | cons c cs =>
    rw [collapseFrom, collapseFrom, List.head?_cons, Option.all_some]
    by_cases hc : isAlphanumeric c
    · simp [hc]
    · simp [hc]

/-- The runs of a text with one underscore between two of them. -/
def joinedRuns (cs : List Char) : List Char :=
  ['_'].intercalate (Text.runs isAlphanumeric cs)

theorem joinedRuns_eq_nil_or_isWords (cs : List Char) :
    joinedRuns cs = [] ∨ IsWords isAlphanumeric (joinedRuns cs) := by
  by_cases hruns : Text.runs isAlphanumeric cs = []
  · exact .inl (by rw [joinedRuns, hruns, List.intercalate_nil])
  · exact .inr (isWords_intercalate hruns fun _ h ↦ Text.of_mem_runs h)

/-- **What collapsing leaves**: the runs with underscores between them, and there may be another
underscore behind them. -/
theorem collapseFrom_true (cs : List Char) : collapseFrom true cs = joinedRuns cs ∨
    joinedRuns cs ≠ [] ∧ collapseFrom true cs = joinedRuns cs ++ ['_'] := by
  induction cs with
  | nil => exact .inl rfl
  | cons c cs ih =>
    rw [collapseFrom, joinedRuns]
    by_cases hc : isAlphanumeric c
    · rw [if_pos hc, collapseFrom_false, Text.runs_cons_of_kept hc]
      cases cs with
      | nil => exact .inl rfl
      | cons d cs =>
        rw [List.head?_cons, Option.all_some, Option.any_some]
        by_cases hd : isAlphanumeric d
        · -- The letter goes on with the first run.
          obtain ⟨run, rest, hruns⟩ := Text.exists_runs_cons hd cs
          rw [if_pos hd, if_pos hd, hruns, List.modifyHead_cons, List.intercalate_cons_cons_left,
            ← hruns]
          exact ih.imp (congrArg (c :: ·)) fun h ↦ ⟨List.cons_ne_nil _ _, congrArg (c :: ·) h.2⟩
        · rw [if_neg hd, if_neg hd]
          by_cases hruns : Text.runs isAlphanumeric (d :: cs) = []
          · -- No run comes behind it, and what is left of the rest is an underscore.
            have hjoined : joinedRuns (d :: cs) = [] := by
              rw [joinedRuns, hruns, List.intercalate_nil]
            have hnone := ih.resolve_right fun h ↦ h.1 hjoined
            rw [hnone, hjoined, hruns]
            exact .inr ⟨List.cons_ne_nil _ _, rfl⟩
          · rw [List.intercalate_cons_of_ne_nil hruns]
            exact ih.imp (congrArg (c :: '_' :: ·)) fun h ↦
              ⟨List.cons_ne_nil _ _, congrArg (c :: '_' :: ·) h.2⟩
    · rw [if_neg hc, if_pos rfl, Text.runs_cons_of_not_kept (Bool.eq_false_iff.2 hc)]
      exact ih

/-- An underscore is stripped from the end, and nothing from words. -/
theorem IsWords.stripStart_reverse (h : IsWords isAlphanumeric cs) :
    (stripStart cs.reverse).reverse = cs := by
  obtain ⟨before, last, rfl, hlast⟩ := h.exists_concat
  rw [List.reverse_append, List.reverse_singleton, List.singleton_append,
    stripStart_of_isAlphanumeric hlast, List.reverse_cons, List.reverse_reverse]

/-- **What stripping leaves**: the runs with underscores between them. -/
theorem stripEnds_collapseFrom (cs : List Char) :
    stripEnds (collapseFrom false cs) = joinedRuns cs := by
  rw [stripEnds, stripStart_collapseFrom]
  rcases collapseFrom_true cs with hcollapsed | ⟨-, hcollapsed⟩
  · rw [hcollapsed]
    rcases joinedRuns_eq_nil_or_isWords cs with hnil | hwords
    · rw [hnil]
      rfl
    · exact hwords.stripStart_reverse
  · rw [hcollapsed, List.reverse_append, List.reverse_singleton, List.singleton_append, stripStart,
      List.reverse_reverse]

/-- The first character of the first run is the first letter or digit. -/
theorem head?_joinedRuns (cs : List Char) :
    (joinedRuns cs).head? = cs.find? isAlphanumeric := by
  rw [← head?_collapseFrom]
  rcases collapseFrom_true cs with hcollapsed | ⟨hne, hcollapsed⟩
  · rw [hcollapsed]
  · obtain ⟨first, rest, hjoined⟩ := List.exists_cons_of_ne_nil hne
    rw [hcollapsed, hjoined]
    rfl

/-! ### Segments -/

/-- **A segment is the runs of the name** once its humps are separated, as capitals. -/
theorem segmentChars_eq (cs : List Char) :
    segmentChars cs = (joinedRuns (separateHumps cs)).map Char.toUpper := by
  rw [segmentChars, stripEnds_collapseFrom]

/-- **A segment starts with the first letter or digit of the name**, as a capital. -/
theorem head?_segmentChars (cs : List Char) :
    (segmentChars cs).head? = (cs.find? isAlphanumeric).map Char.toUpper := by
  rw [segmentChars_eq, List.head?_map, head?_joinedRuns, find?_separateHumps]

/-- **A segment is empty or made of words.** -/
theorem segmentChars_eq_nil_or_isWords (cs : List Char) :
    segmentChars cs = [] ∨ IsWords isCapital (segmentChars cs) := by
  rw [segmentChars_eq]
  rcases joinedRuns_eq_nil_or_isWords (separateHumps cs) with hnil | hwords
  · exact .inl (by rw [hnil, List.map_nil])
  · exact .inr (hwords.map (fun _ ↦ isCapital_toUpper) (by decide))

theorem all_isNameChar_segmentChars (cs : List Char) :
    (segmentChars cs).all isNameChar = true := by
  rcases segmentChars_eq_nil_or_isWords cs with hnil | hwords
  · rw [hnil, List.all_nil]
  · exact hwords.all_isNameChar

/-! ### Well-formed names -/

/-- Capitals and the underscore are the characters of names that are no digits. -/
theorem start_eq (c : Char) : (c.isUpper || c == '_') = (isNameChar c && !c.isDigit) := by
  have hdisjoint : c.isUpper = true → c.isDigit = false := by
    intro h
    have hupper := ((isUpper_iff c).1 h).1
    refine Bool.eq_false_iff.2 fun hdigit ↦ ?_
    have hnine := (Char.isDigit_iff_toNat.1 hdigit).2
    exact absurd (Nat.le_trans hupper hnine) (by decide)
  by_cases hunderscore : c = '_'
  · subst hunderscore
    rfl
  · have hbeq : (c == '_') = false := beq_eq_false_iff_ne.2 hunderscore
    cases hupper : c.isUpper with
    | true => simp [isNameChar, hupper, hdisjoint hupper]
    | false => simp [isNameChar, hupper, hbeq]

/-- A name is well-formed if it has no other characters than names may have and starts with
something that is no digit. -/
theorem isWellFormed_iff : isWellFormed name = true ↔
    name.toList.all isNameChar = true ∧ ∃ c ∈ name.toList.head?, c.isDigit = false := by
  rw [isWellFormed]
  cases name.toList with
  | nil => simp
  | cons c cs =>
    have hall : (cs.all fun c ↦ c.isUpper || c.isDigit || c == '_') = cs.all isNameChar := rfl
    simp only [start_eq, hall, List.all_cons, List.head?_cons, Bool.and_eq_true,
      Bool.not_eq_true', Option.mem_some_iff, exists_eq_left', and_right_comm]

/-- **A segment is well-formed** if the first letter or digit of the name is a letter. -/
theorem isWellFormed_segment_iff : isWellFormed (segment name) = true ↔
    ∃ c ∈ name.toList.find? isAlphanumeric, c.isAlpha = true := by
  rw [isWellFormed_iff, segment, String.toList_ofList, head?_segmentChars,
    and_iff_right (all_isNameChar_segmentChars _)]
  cases hfirst : name.toList.find? isAlphanumeric with
  | none => simp
  | some c =>
    have hc : isAlphanumeric c = true := List.find?_some hfirst
    simp [isDigit_toUpper hc, isAlpha_eq_not_isDigit hc]

/-- What is put after a segment is well-formed with it, unless the first letter or digit of the name
is a digit. -/
theorem isWellFormed_segment_append_iff (h : isWellFormed suffix = true) :
    isWellFormed (segment name ++ suffix) = true ↔
      ∀ c ∈ name.toList.find? isAlphanumeric, c.isAlpha = true := by
  obtain ⟨hsuffix, first, hfirst, hdigit⟩ := isWellFormed_iff.1 h
  rw [isWellFormed_iff, String.toList_append, List.all_append, hsuffix, segment,
    String.toList_ofList, all_isNameChar_segmentChars, List.head?_append, head?_segmentChars,
    hfirst, Bool.and_self, and_iff_right rfl]
  cases hfound : name.toList.find? isAlphanumeric with
  | none => simp [hdigit]
  | some c =>
    have hc : isAlphanumeric c = true := List.find?_some hfound
    simp [isDigit_toUpper hc, isAlpha_eq_not_isDigit hc]

/-- What is put after a well-formed name is well-formed with it. -/
theorem isWellFormed_append (hname : isWellFormed name = true)
    (hsuffix : isWellFormed suffix = true) : isWellFormed (name ++ suffix) = true := by
  obtain ⟨hchars, first, hfirst, hdigit⟩ := isWellFormed_iff.1 hname
  refine isWellFormed_iff.2 ⟨?_, first, ?_, hdigit⟩
  · rw [String.toList_append, List.all_append, hchars, (isWellFormed_iff.1 hsuffix).1]
    rfl
  · rw [String.toList_append, List.head?_append, Option.mem_def.1 hfirst]
    rfl

end ResourceLocator.EnvName
