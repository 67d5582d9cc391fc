import Mathlib.Data.List.Forall2
import ResourceLocator.Proofs.Value.Json

/-!
# What is written is read back

The JSON text of a value gives the value back (`read?_of_isKept`), if the value is made of nulls,
truth values and texts by lists and records. Numbers are left out, since the statement about them
is one about decimals, and so are the values for which there is no JSON.

A text is *read as* a value if this holds wherever the text stands (`ReadsAs`): whatever comes after
it is left over. The reader is given fuel, two units for each character; one unit goes to the value
itself and one to its place in the list or record that it stands in.

A record gives its fields back in the order that `Fields.put` keeps, so its fields have to be in
that order (`Fields.ofList`).
-/

namespace ResourceLocator.Json

variable {fuel : Nat} {text : String} {texts : List String} {v : Value} {vs : List Value}

/-! ### Quoted texts -/

theorem digitValue?_hexDigit : ∀ n < 16, Number.digitValue? (hexDigit n) = some n := by decide

/-- A control character is written as its number. -/
theorem fourHex?_control {c : Char} (h : c.toNat < 0x20) (rest : List Char) :
    fourHex? ('0' :: '0' :: hexDigit (c.toNat / 16) :: hexDigit c.toNat :: rest) =
      some (c.toNat, rest) := by
  have hhigh := digitValue?_hexDigit (c.toNat / 16) (by omega)
  have hlow := digitValue?_hexDigit (c.toNat % 16) (Nat.mod_lt _ (by omega))
  have hmod : hexDigit (c.toNat % 16) = hexDigit c.toNat := by rw [hexDigit, hexDigit, Nat.mod_mod]
  have hzero : Number.digitValue? '0' = some 0 := by decide
  rw [hmod] at hlow
  have hvalue : c.toNat / 16 * 0x10 + c.toNat % 16 = c.toNat := by omega
  simp [fourHex?, hhigh, hlow, hzero, hvalue]

/-- **A character is read as it is written.** -/
theorem readChars?_escapeChar (c : Char) (fuel : Nat) (more : List Char) :
    readChars? (fuel + 1) (escapeChar c ++ more) =
      (readChars? fuel more).map fun read ↦ (c :: read.1, read.2) := by
  unfold escapeChar
  split
  case h_8 _ hquote hslash _ _ _ _ _ =>
    split
    case isTrue hcontrol =>
      have hunit : unitChar c.toNat more = (c, more) := by
        simp [unitChar, show ¬0xD800 ≤ c.toNat by omega, show ¬0xDC00 ≤ c.toNat by omega]
      rw [List.cons_append, List.cons_append, readChars?]
      simp only [List.cons_append, List.nil_append, fourHex?_control hcontrol, Option.bind_eq_bind,
        Option.bind_some, hunit, Option.map_eq_bind]
      rfl
    case isFalse hcontrol =>
      rw [List.cons_append, List.nil_append, readChars?]
      · simp only [hcontrol, beq_eq_false_iff_ne.2 hslash, decide_false, Bool.or_false,
          Bool.false_eq_true, if_false, Option.bind_eq_bind, Option.map_eq_bind]
        rfl
      all_goals simp_all
  all_goals
    rw [List.cons_append, List.cons_append, List.nil_append, readChars?]
    simp only [Option.bind_eq_bind, Option.bind_some, Option.map_eq_bind]
    rfl

/-- **A text is read as it is written.** -/
theorem readChars?_flatMap_escapeChar (cs rest : List Char) (h : cs.length < fuel) :
    readChars? fuel (cs.flatMap escapeChar ++ '"' :: rest) = some (cs, rest) := by
  induction cs generalizing fuel with
  | nil =>
    obtain ⟨fuel, rfl⟩ := Nat.exists_eq_succ_of_ne_zero (Nat.ne_of_gt h)
    rfl
  | cons c cs ih =>
    rw [List.length_cons] at h
    obtain ⟨fuel, rfl⟩ := Nat.exists_eq_succ_of_ne_zero (show fuel ≠ 0 by omega)
    rw [List.flatMap_cons, List.append_assoc, readChars?_escapeChar, ih (by omega)]
    rfl

theorem length_le_flatMap_escapeChar (cs : List Char) :
    cs.length ≤ (cs.flatMap escapeChar).length := by
  have hone : ∀ c, 1 ≤ (escapeChar c).length := by
    intro c
    unfold escapeChar
    repeat' split
    all_goals simp
  induction cs with
  | nil => exact Nat.zero_le _
  | cons c cs ih =>
    have hc := hone c
    rw [List.flatMap_cons, List.length_cons, List.length_append]
    omega

theorem toList_quote (s : String) :
    (quote s).toList = '"' :: (s.toList.flatMap escapeChar ++ ['"']) := by
  rw [quote, String.toList_ofList, List.cons_append]

/-- With as much fuel as there are characters left. -/
theorem readChars?_quoted (s : String) (rest : List Char) :
    let inside := s.toList.flatMap escapeChar ++ '"' :: rest
    readChars? (inside.length + 1) inside = some (s.toList, rest) := by
  intro inside
  refine readChars?_flatMap_escapeChar s.toList rest ?_
  have hlength := length_le_flatMap_escapeChar s.toList
  show s.toList.length < (s.toList.flatMap escapeChar ++ '"' :: rest).length + 1
  rw [List.length_append]
  omega

/-! ### Values -/

/-- A text is read as a value, wherever it stands. -/
structure ReadsAs (text : String) (v : Value) : Prop where
  /-- It starts with a character that neither is a blank nor ends a list or a record. -/
  starts : ∃ c cs, text.toList = c :: cs ∧ c ∉ [' ', '\t', '\n', '\r'] ∧ c ≠ ']'
  /-- What comes after it is left over. -/
  reads (fuel : Nat) (rest : List Char) (h : 2 * text.length ≤ fuel) :
    readValue? fuel (text.toList ++ rest) = some (v, rest)

/-- **A text that is read as a value is a text of it.** -/
theorem ReadsAs.read?_eq (h : ReadsAs text v) : read? text = some v := by
  have hread := h.reads (2 * text.toList.length + 2) [] (by rw [String.length_toList]; omega)
  rw [List.append_nil] at hread
  rw [read?, hread]
  rfl

/-- A text that starts with a given character is read as what the reader makes of the rest. -/
theorem readsAs_of_cons {c : Char} {cs : List Char} (htext : text.toList = c :: cs)
    (hblank : c ∉ [' ', '\t', '\n', '\r']) (hclosing : c ≠ ']')
    (h : ∀ fuel rest, 2 * text.length ≤ fuel + 1 →
      readValue? (fuel + 1) (c :: (cs ++ rest)) = some (v, rest)) : ReadsAs text v := by
  refine ⟨⟨c, cs, htext, hblank, hclosing⟩, fun fuel rest hfuel ↦ ?_⟩
  have hlength : text.length = cs.length + 1 := by
    rw [← String.length_toList, htext, List.length_cons]
  obtain ⟨fuel, rfl⟩ := Nat.exists_eq_succ_of_ne_zero (show fuel ≠ 0 by omega)
  rw [htext]
  exact h fuel rest hfuel

theorem readsAs_null : ReadsAs "null" .null :=
  readsAs_of_cons (by decide : "null".toList = 'n' :: ['u', 'l', 'l']) (by decide) (by decide)
    fun fuel rest _ ↦ readValue?_null fuel rest

theorem readsAs_bool (b : Bool) : ReadsAs (if b then "true" else "false") (.bool b) := by
  cases b with
  | true =>
    refine readsAs_of_cons (by decide : "true".toList = 't' :: ['r', 'u', 'e']) (by decide)
      (by decide) fun fuel rest _ ↦ ?_
    rw [readValue?, skipBlanks_cons (by decide)]
    rfl
  | false =>
    refine readsAs_of_cons (by decide : "false".toList = 'f' :: ['a', 'l', 's', 'e']) (by decide)
      (by decide) fun fuel rest _ ↦ ?_
    rw [readValue?, skipBlanks_cons (by decide)]
    rfl

theorem readsAs_quote (s : String) : ReadsAs (quote s) (.text s) := by
  refine readsAs_of_cons (toList_quote s) (by decide) (by decide) fun fuel rest _ ↦ ?_
  rw [readValue?, skipBlanks_cons (by decide), List.append_assoc, List.cons_append, List.nil_append]
  simp only [readChars?_quoted s rest, Option.map_some, String.ofList_toList]

/-! ### Lists and records -/

/-- A text between commas starts as the first of its parts. -/
theorem exists_toList_intercalate {c : Char} {cs : List Char} (h : text.toList = c :: cs)
    (texts : List String) :
    ∃ more, (String.intercalate "," (text :: texts)).toList = c :: more := by
  cases texts with
  | nil => exact ⟨cs, by rw [String.intercalate_singleton, h]⟩
  | cons next texts =>
    rw [String.intercalate_cons_cons, String.toList_append, String.toList_append, h]
    exact ⟨_, rfl⟩

theorem toList_intercalate_cons_cons (text next : String) (texts : List String) :
    (String.intercalate "," (text :: next :: texts)).toList =
      text.toList ++ ',' :: (String.intercalate "," (next :: texts)).toList := by
  rw [String.intercalate_cons_cons, String.toList_append, String.toList_append, List.append_assoc]
  rfl

theorem length_intercalate_cons_cons (text next : String) (texts : List String) :
    (String.intercalate "," (text :: next :: texts)).length =
      text.length + 1 + (String.intercalate "," (next :: texts)).length := by
  rw [String.intercalate_cons_cons, String.length_append, String.length_append]
  rfl

theorem toList_enclose (opening closing : Char) (texts : List String) :
    (enclose (String.ofList [opening]) (String.ofList [closing]) texts).toList =
      opening :: ((String.intercalate "," texts).toList ++ [closing]) := by
  rw [enclose, String.toList_append, String.toList_append, String.toList_ofList,
    String.toList_ofList]
  rfl

theorem length_enclose (opening closing : Char) (texts : List String) :
    (enclose (String.ofList [opening]) (String.ofList [closing]) texts).length =
      (String.intercalate "," texts).length + 2 := by
  rw [← String.length_toList, toList_enclose, List.length_cons, List.length_append,
    String.length_toList]
  rfl

/-- One item is read, and then what comes after it decides. -/
theorem readItems?_item (h : ReadsAs text v) (hfuel : 2 * text.length ≤ fuel) (more : List Char) :
    readItems? (fuel + 1) (text.toList ++ more) = match skipBlanks more with
      | ',' :: rest => (readItems? fuel rest).map fun read ↦ (v :: read.1, read.2)
      | ']' :: rest => some ([v], rest)
      | _ => none := by
  rw [readItems?, h.reads fuel more hfuel]
  simp only [Option.bind_eq_bind, Option.bind_some, Option.map_eq_bind]
  rfl

/-- **Items are read one after the other.** -/
theorem readItems?_of_forall₂ (h : List.Forall₂ ReadsAs texts vs) (hne : texts ≠ [])
    (rest : List Char) (hfuel : 2 * (String.intercalate "," texts).length < fuel) :
    readItems? fuel ((String.intercalate "," texts).toList ++ ']' :: rest) = some (vs, rest) := by
  induction h generalizing fuel with
  | nil => exact absurd rfl hne
  | @cons text v texts vs hread hreads ih =>
    obtain ⟨fuel, rfl⟩ := Nat.exists_eq_succ_of_ne_zero (show fuel ≠ 0 by omega)
    cases hreads with
    | nil =>
      rw [String.intercalate_singleton] at hfuel ⊢
      rw [readItems?_item hread (by omega), skipBlanks_cons (by decide)]
      rfl
    | @cons next w texts vs hnext hrest =>
      rw [length_intercalate_cons_cons] at hfuel
      have hlength : 2 * (String.intercalate "," (next :: texts)).length < fuel := by omega
      rw [toList_intercalate_cons_cons, List.append_assoc, List.cons_append,
        readItems?_item hread (by omega), skipBlanks_cons (by decide)]
      simp only [ih (List.cons_ne_nil _ _) hlength, Option.map_some]

theorem readsAs_list (h : List.Forall₂ ReadsAs texts vs) :
    ReadsAs (enclose "[" "]" texts) (.list vs) := by
  refine readsAs_of_cons (toList_enclose '[' ']' texts) (by decide) (by decide)
    fun fuel rest hfuel ↦ ?_
  have hlength : (enclose "[" "]" texts).length = _ := length_enclose '[' ']' texts
  rw [readValue?, skipBlanks_cons (by decide), List.append_assoc, List.cons_append, List.nil_append]
  cases h with
  | nil => rfl
  | @cons text v texts vs hread hreads =>
    have hinside : 2 * (String.intercalate "," (text :: texts)).length < fuel := by omega
    have hitems := readItems?_of_forall₂ (.cons hread hreads) (List.cons_ne_nil _ _) rest hinside
    -- The first item starts with a character that does not end the list.
    obtain ⟨c, cs, hstart, hblank, hclosing⟩ := hread.starts
    obtain ⟨more, hmore⟩ := exists_toList_intercalate hstart texts
    rw [hmore, List.cons_append] at hitems ⊢
    simp only [skipBlanks_cons hblank, hitems]
    split
    · next heq => exact absurd (List.cons.inj heq).1 hclosing
    · rfl

/-- A text is read as a field: a key in quotes, and a text that is read as the value. -/
def ReadsAsField (text : String) (field : String × Value) : Prop :=
  ∃ valueText, text = quote field.1 ++ ":" ++ valueText ∧ ReadsAs valueText field.2

/-- One field is read, and then what comes after it decides. -/
theorem readFields?_field {field : String × Value} (h : ReadsAsField text field)
    (hfuel : 2 * text.length ≤ fuel) (before : Fields) (more : List Char) :
    readFields? (fuel + 1) before (text.toList ++ more) = match skipBlanks more with
      | ',' :: rest => readFields? fuel (Fields.put before field.1 field.2) rest
      | '\x7d' :: rest => some (Fields.put before field.1 field.2, rest)
      | _ => none := by
  obtain ⟨valueText, rfl, hread⟩ := h
  have hlength : valueText.length ≤ (quote field.1 ++ ":" ++ valueText).length := by
    rw [String.length_append]
    exact Nat.le_add_left _ _
  have htext : (quote field.1 ++ ":" ++ valueText).toList ++ more =
      '"' :: (field.1.toList.flatMap escapeChar ++ '"' :: ':' :: (valueText.toList ++ more)) := by
    rw [String.toList_append, String.toList_append, toList_quote]
    simp
  have hkey := readChars?_quoted field.1 (':' :: (valueText.toList ++ more))
  rw [htext, readFields?, skipBlanks_cons (by decide)]
  simp only [hkey, Option.bind_eq_bind, Option.bind_some, skipBlanks_cons (by decide : ':' ∉ _),
    hread.reads fuel more (by omega), String.ofList_toList]
  rfl

/-- **Fields are put one after the other** over those that have been read. -/
theorem readFields?_of_forall₂ {fields : Fields} (h : List.Forall₂ ReadsAsField texts fields)
    (hne : texts ≠ []) (before : Fields) (rest : List Char)
    (hfuel : 2 * (String.intercalate "," texts).length < fuel) :
    readFields? fuel before ((String.intercalate "," texts).toList ++ '\x7d' :: rest) =
      some (Fields.merge before fields, rest) := by
  induction h generalizing fuel before with
  | nil => exact absurd rfl hne
  | @cons text field texts fields hread hreads ih =>
    obtain ⟨fuel, rfl⟩ := Nat.exists_eq_succ_of_ne_zero (show fuel ≠ 0 by omega)
    cases hreads with
    | nil =>
      rw [String.intercalate_singleton] at hfuel ⊢
      rw [readFields?_field hread (by omega), skipBlanks_cons (by decide)]
      rfl
    | @cons next w texts vs hnext hrest =>
      rw [length_intercalate_cons_cons] at hfuel
      rw [toList_intercalate_cons_cons, List.append_assoc, List.cons_append,
        readFields?_field hread (by omega), skipBlanks_cons (by decide)]
      exact ih (List.cons_ne_nil _ _) _ (by omega)

theorem readsAs_record {fields : Fields} (h : List.Forall₂ ReadsAsField texts fields) :
    ReadsAs (enclose "\x7b" "\x7d" texts) (.record (Fields.ofList fields)) := by
  refine readsAs_of_cons (toList_enclose '\x7b' '\x7d' texts) (by decide) (by decide)
    fun fuel rest hfuel ↦ ?_
  have hlength : (enclose "\x7b" "\x7d" texts).length = _ := length_enclose '\x7b' '\x7d' texts
  rw [readValue?, skipBlanks_cons (by decide), List.append_assoc, List.cons_append, List.nil_append]
  cases h with
  | nil => rfl
  | @cons text field texts fields hread hreads =>
    have hinside : 2 * (String.intercalate "," (text :: texts)).length < fuel := by omega
    have hfields := readFields?_of_forall₂ (.cons hread hreads) (List.cons_ne_nil _ _) [] rest
      hinside
    obtain ⟨cs, hstart⟩ : ∃ cs, text.toList = '"' :: cs := by
      obtain ⟨valueText, rfl, -⟩ := hread
      rw [String.toList_append, String.toList_append, toList_quote]
      exact ⟨_, rfl⟩
    obtain ⟨more, hmore⟩ := exists_toList_intercalate hstart texts
    rw [hmore, List.cons_append] at hfields ⊢
    simp only [skipBlanks_cons (by decide : '"' ∉ _), hfields]
    rfl

/-! ### What is written -/

/-- A value that its JSON text gives back: it is made of nulls, truth values and texts by lists and
by records whose fields are in order. -/
inductive IsKept : Value → Prop where
  /-- The null value. -/
  | null : IsKept .null
  /-- A truth value. -/
  | bool (b : Bool) : IsKept (.bool b)
  /-- A text. -/
  | text (s : String) : IsKept (.text s)
  /-- A list of such values. -/
  | list {items : List Value} (h : ∀ item ∈ items, IsKept item) : IsKept (.list items)
  /-- A record of such values. -/
  | record {fields : Fields} (h : ∀ field ∈ fields, IsKept field.2)
    (horder : Fields.ofList fields = fields) : IsKept (.record fields)

/-- A value is written as a text that is read as it. -/
def WritesBack (v : Value) : Prop := ∃ text, write? v = .ok (some text) ∧ ReadsAs text v

theorem exists_writeItems (h : ∀ v ∈ vs, WritesBack v) :
    ∃ texts, writeItems vs = .ok texts ∧ List.Forall₂ ReadsAs texts vs := by
  induction vs with
  | nil => exact ⟨[], rfl, .nil⟩
  | cons v vs ih =>
    rw [List.forall_mem_cons] at h
    obtain ⟨text, hwrite, hread⟩ := h.1
    obtain ⟨texts, hwrites, hreads⟩ := ih h.2
    refine ⟨text :: texts, ?_, .cons hread hreads⟩
    rw [writeItems, hwrite, hwrites]
    rfl

theorem exists_writeFields {fields : Fields} (h : ∀ field ∈ fields, WritesBack field.2) :
    ∃ texts, writeFields fields = .ok texts ∧ List.Forall₂ ReadsAsField texts fields := by
  induction fields with
  | nil => exact ⟨[], rfl, .nil⟩
  | cons field fields ih =>
    rw [List.forall_mem_cons] at h
    obtain ⟨text, hwrite, hread⟩ := h.1
    obtain ⟨texts, hwrites, hreads⟩ := ih h.2
    refine ⟨(quote field.1 ++ ":" ++ text) :: texts, ?_, .cons ⟨text, rfl, hread⟩ hreads⟩
    rw [writeFields, hwrite, hwrites]
    rfl

theorem IsKept.writesBack (h : IsKept v) : WritesBack v := by
  induction h with
  | null => exact ⟨"null", by rw [write?], readsAs_null⟩
  | bool b => exact ⟨if b then "true" else "false", by rw [write?], readsAs_bool b⟩
  | text s => exact ⟨quote s, by rw [write?], readsAs_quote s⟩
  | list _ ih =>
    obtain ⟨texts, hwrites, hreads⟩ := exists_writeItems ih
    exact ⟨enclose "[" "]" texts, by rw [write?, hwrites, Except.map], readsAs_list hreads⟩
  | record _ horder ih =>
    obtain ⟨texts, hwrites, hreads⟩ := exists_writeFields ih
    have hread := readsAs_record hreads
    rw [horder] at hread
    exact ⟨enclose "\x7b" "\x7d" texts, by rw [write?, hwrites, Except.map], hread⟩

/-- **What is written is read back.** -/
theorem read?_of_isKept (h : IsKept v) :
    ∃ text, write? v = .ok (some text) ∧ read? text = some v := by
  obtain ⟨text, hwrite, hread⟩ := h.writesBack
  exact ⟨text, hwrite, hread.read?_eq⟩

end ResourceLocator.Json
