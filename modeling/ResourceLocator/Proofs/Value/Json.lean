import ResourceLocator.Value.Json

/-!
# Reading JSON texts

What the reader makes of the parts of a JSON text, with whatever stands after them: quoted
characters that need no escape, the null value, a record of one field, and a list of one record.
-/

namespace ResourceLocator.Json

variable {fuel : Nat} {more rest : List Char} {v : Value}

theorem skipBlanks_cons {c : Char} (h : c ∉ [' ', '\t', '\n', '\r']) (cs : List Char) :
    skipBlanks (c :: cs) = c :: cs := by
  rw [skipBlanks, List.dropWhile_cons_of_neg]
  simpa [not_or, and_assoc] using h

/-- Whether a character stands for itself between quotes. -/
def isPlain (c : Char) : Bool := c != '"' && c != '\\' && !decide (c.toNat < 0x20)

/-- **Plain characters are read up to the quote.** -/
theorem readChars?_of_plain {cs : List Char} (h : cs.all isPlain = true)
    (hfuel : cs.length < fuel) :
    readChars? fuel (cs ++ '"' :: rest) = some (cs, rest) := by
  induction cs generalizing fuel with
  | nil =>
    obtain ⟨fuel, rfl⟩ := Nat.exists_eq_succ_of_ne_zero (Nat.ne_of_gt hfuel)
    rfl
  | cons c cs ih =>
    obtain ⟨fuel, rfl⟩ := Nat.exists_eq_succ_of_ne_zero (Nat.ne_of_gt (Nat.zero_lt_of_lt hfuel))
    rw [List.all_cons, Bool.and_eq_true] at h
    obtain ⟨hplain, hrest⟩ := h
    obtain ⟨⟨hquote, hslash⟩, hcontrol⟩ : (c ≠ '"' ∧ c ≠ '\\') ∧ ¬c.toNat < 0x20 := by
      simpa only [isPlain, Bool.and_eq_true, bne_iff_ne, Bool.not_eq_true', decide_eq_false_iff_not]
        using hplain
    have hread := ih hrest (Nat.lt_of_succ_lt_succ hfuel)
    simp [readChars?, hslash, hcontrol, hread]

theorem readValue?_null (fuel : Nat) (rest : List Char) :
    readValue? (fuel + 1) ('n' :: 'u' :: 'l' :: 'l' :: rest) = some (.null, rest) := by
  rw [readValue?, skipBlanks_cons (by decide)]
  rfl

/-- **A record of one field.** -/
theorem readValue?_record (key : List Char) (hkey : key.all isPlain = true)
    (h : readValue? fuel more = some (v, '\x7d' :: rest)) :
    readValue? (fuel + 2) ('\x7b' :: '"' :: (key ++ '"' :: ':' :: more)) =
      some (.record [(String.ofList key, v)], rest) := by
  have hchars : readChars? ((key ++ '"' :: ':' :: more).length + 1) (key ++ '"' :: ':' :: more) =
      some (key, ':' :: more) := readChars?_of_plain hkey (by rw [List.length_append]; omega)
  have hfields : readFields? (fuel + 1) [] ('"' :: (key ++ '"' :: ':' :: more)) =
      some ([(String.ofList key, v)], rest) := by
    rw [readFields?, skipBlanks_cons (by decide)]
    simp only [hchars, Option.bind_eq_bind, Option.bind_some,
      skipBlanks_cons (by decide : ':' ∉ _), h, skipBlanks_cons (by decide : '\x7d' ∉ _),
      Fields.put]
    rfl
  rw [readValue?, skipBlanks_cons (by decide)]
  simp only [skipBlanks_cons (by decide : '"' ∉ _), hfields]
  rfl

/-- **A list of one record.** -/
theorem readValue?_list (h : readValue? fuel ('\x7b' :: more) = some (v, ']' :: rest)) :
    readValue? (fuel + 2) ('[' :: '\x7b' :: more) = some (.list [v], rest) := by
  have hitems : readItems? (fuel + 1) ('\x7b' :: more) = some ([v], rest) := by
    rw [readItems?]
    simp only [h, Option.bind_eq_bind, Option.bind_some, skipBlanks_cons (by decide : ']' ∉ _)]
    rfl
  rw [readValue?, skipBlanks_cons (by decide)]
  simp only [skipBlanks_cons (by decide : '\x7b' ∉ _), hitems]
  rfl

end ResourceLocator.Json
