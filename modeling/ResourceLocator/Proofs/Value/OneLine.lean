import ResourceLocator.Log.Timestamp
import ResourceLocator.Value.Json

/-!
# Texts on one line

A text is on one line if it holds no newline (`Text.IsOneLine`). Numbers, timestamps and JSON texts
are on one line, whatever they are the text of (`Number.isOneLine_text`,
`Instant.isOneLine_timestamp`, `Json.isOneLine_write?`): digits are no newlines, and a newline
inside a quoted text is escaped.
-/

namespace ResourceLocator

namespace Text

/-- Whether a text holds no newline. -/
def IsOneLine (s : String) : Prop := '\n' ∉ s.toList

instance : DecidablePred IsOneLine := fun s ↦ inferInstanceAs (Decidable ('\n' ∉ s.toList))

variable {s t : String} {cs : List Char} {texts : List String}

theorem isOneLine_append_iff : IsOneLine (s ++ t) ↔ IsOneLine s ∧ IsOneLine t := by
  simp [IsOneLine, not_or]

theorem IsOneLine.append (hs : IsOneLine s) (ht : IsOneLine t) : IsOneLine (s ++ t) :=
  isOneLine_append_iff.2 ⟨hs, ht⟩

theorem isOneLine_ofList_iff : IsOneLine (String.ofList cs) ↔ '\n' ∉ cs := by
  rw [IsOneLine, String.toList_ofList]

theorem isOneLine_intercalate (hs : IsOneLine s) (h : ∀ text ∈ texts, IsOneLine text) :
    IsOneLine (String.intercalate s texts) := by
  induction texts with
  | nil => exact List.not_mem_nil
  | cons text texts ih =>
    obtain ⟨htext, hrest⟩ := List.forall_mem_cons.1 h
    cases texts with
    | nil => rwa [String.intercalate_singleton]
    | cons next texts =>
      rw [String.intercalate_cons_cons]
      exact (htext.append hs).append (ih hrest)

end Text

open Text

/-! ### Numbers and timestamps -/

theorem newline_not_mem_toDigits (n : Nat) : '\n' ∉ Nat.toDigits 10 n := fun h ↦
  absurd (Nat.isDigit_of_mem_toDigits (by decide) (by decide) h) (by decide)

namespace Number

theorem newline_not_mem_positional {digits : List Char} (h : '\n' ∉ digits) (point : Int) :
    '\n' ∉ positional digits point := by
  simp only [positional]
  split
  · simp [h]
  · split
    · simp [h]
    · have htake : '\n' ∉ digits.take point.toNat := fun hmem ↦ h (List.mem_of_mem_take hmem)
      have hdrop : '\n' ∉ digits.drop point.toNat := fun hmem ↦ h (List.mem_of_mem_drop hmem)
      simp [htake, hdrop]

theorem newline_not_mem_scientific {digits : List Char} (h : '\n' ∉ digits) (exponent : Int) :
    '\n' ∉ scientific digits exponent := by
  have hsign : '\n' ≠ if exponent < 0 then '-' else '+' := by split <;> decide
  simp only [scientific, List.mem_append, List.mem_cons, not_or]
  refine ⟨?_, by decide, hsign, newline_not_mem_toDigits _⟩
  rcases digits with _ | ⟨d, _ | ⟨e, ds⟩⟩
  · exact h
  · exact h
  · simpa using h

/-- **The text of a number is on one line.** -/
theorem isOneLine_text (n : Number) : IsOneLine n.text := by
  cases n with
  | nan => decide
  | infinite negative => cases negative <;> decide
  | finite negative m e =>
    rw [text]
    split
    · decide
    · generalize shortest m e = decimal
      obtain ⟨c, p⟩ := decimal
      have hdigits := newline_not_mem_toDigits c
      have hbody : ∀ point : Int, '\n' ∉ (if -6 < point && point ≤ 21
          then positional (Nat.toDigits 10 c) point
          else scientific (Nat.toDigits 10 c) (point - 1)) := by
        intro point
        split
        · exact newline_not_mem_positional hdigits point
        · exact newline_not_mem_scientific hdigits (point - 1)
      cases negative with
      | false => exact isOneLine_ofList_iff.2 (hbody _)
      | true =>
        exact isOneLine_ofList_iff.2 (List.not_mem_cons_of_ne_of_not_mem (by decide) (hbody _))

end Number

namespace Instant

theorem newline_not_mem_padded (width n : Nat) : '\n' ∉ padded width n := by
  simp [padded, newline_not_mem_toDigits]

theorem newline_not_mem_timestamp (t : Instant) : '\n' ∉ t.timestamp := by
  have hyear : ∀ year, '\n' ∉ yearText year := by
    intro year
    unfold yearText
    split
    · exact newline_not_mem_padded _ _
    · refine List.not_mem_cons_of_ne_of_not_mem ?_ (newline_not_mem_padded _ _)
      split <;> decide
  simp [timestamp, clock, hyear, newline_not_mem_padded]

/-- **A timestamp is on one line**, and so is the part of it that the console shows. -/
theorem isOneLine_timestamp (t : Instant) : IsOneLine (String.ofList t.timestamp) :=
  isOneLine_ofList_iff.2 (newline_not_mem_timestamp t)

theorem isOneLine_clockTime (t : Instant) : IsOneLine (String.ofList t.clockTime) :=
  isOneLine_ofList_iff.2 fun h ↦
    newline_not_mem_timestamp t (List.mem_of_mem_drop (List.mem_of_mem_take h))

end Instant

/-! ### JSON -/

namespace Json

theorem newline_not_mem_escapeChar (c : Char) : '\n' ∉ escapeChar c := by
  have hhex : ∀ n, '\n' ≠ hexDigit n := by
    intro n
    have hdigit : ∀ m < 16, '\n' ≠ hexDigit m := by decide
    have hmod : hexDigit n = hexDigit (n % 16) := by rw [hexDigit, hexDigit, Nat.mod_mod]
    exact hmod ▸ hdigit _ (Nat.mod_lt _ (by decide))
  unfold escapeChar
  split
  case h_8 hnewline _ _ _ _ =>
    split
    · simp [hhex]
    · exact fun h ↦ hnewline (List.mem_singleton.1 h).symm
  all_goals decide

theorem isOneLine_quote (s : String) : IsOneLine (quote s) := by
  have hchars : '\n' ∉ s.toList.flatMap escapeChar := by
    simp [newline_not_mem_escapeChar]
  rw [quote, isOneLine_ofList_iff]
  simp [hchars]

theorem isOneLine_enclose {opening closing : String} {parts : List String}
    (hopening : IsOneLine opening) (hclosing : IsOneLine closing)
    (h : ∀ part ∈ parts, IsOneLine part) : IsOneLine (enclose opening closing parts) :=
  (hopening.append (isOneLine_intercalate (by decide) h)).append hclosing

/-- What has parts on one line is on one line between its brackets. -/
theorem isOneLine_of_map_enclose {opening closing text : String}
    {written : Except Unwritable (List String)} (hopening : IsOneLine opening)
    (hclosing : IsOneLine closing)
    (h : ∀ texts, written = .ok texts → ∀ text ∈ texts, IsOneLine text)
    (htext : (written.map fun parts ↦ some (enclose opening closing parts)) = .ok (some text)) :
    IsOneLine text := by
  cases written with
  | error => cases htext
  | ok texts =>
    obtain rfl : enclose opening closing texts = text := Option.some.inj (Except.ok.inj htext)
    exact isOneLine_enclose hopening hclosing (h texts rfl)

/-- The items of a list are written one after the other. -/
theorem exists_of_writeItems_cons {v : Value} {vs : List Value} {texts : List String}
    (h : writeItems (v :: vs) = .ok texts) : ∃ head rest,
      write? v = .ok head ∧ writeItems vs = .ok rest ∧ texts = head.getD "null" :: rest := by
  rw [writeItems] at h
  cases hv : write? v with
  | error => rw [hv] at h; cases h
  | ok head =>
    cases hvs : writeItems vs with
    | error => rw [hv, hvs] at h; cases h
    | ok rest =>
      rw [hv, hvs] at h
      exact ⟨head, rest, rfl, rfl, (Except.ok.inj h).symm⟩

/-- So are the fields of a record, those that have a text. -/
theorem exists_of_writeFields_cons {key : String} {v : Value} {fields : Fields}
    {texts : List String} (h : writeFields ((key, v) :: fields) = .ok texts) : ∃ head rest,
      write? v = .ok head ∧ writeFields fields = .ok rest ∧
        texts = (head.map fun text ↦ quote key ++ ":" ++ text).toList ++ rest := by
  rw [writeFields] at h
  cases hv : write? v with
  | error => rw [hv] at h; cases h
  | ok head =>
    cases hrest : writeFields fields with
    | error => rw [hv, hrest] at h; cases h
    | ok rest =>
      rw [hv, hrest] at h
      refine ⟨head, rest, rfl, rfl, ?_⟩
      cases head <;> exact (Except.ok.inj h).symm

theorem isOneLine_of_write?_eq {v : Value} {whole text : String} (hv : write? v = .ok (some whole))
    (hwhole : IsOneLine whole) (htext : write? v = .ok (some text)) : IsOneLine text := by
  obtain rfl : whole = text := Option.some.inj (Except.ok.inj (hv.symm.trans htext))
  exact hwhole

mutual

/-- **A JSON text is on one line**, whatever it is the text of. -/
theorem isOneLine_write? (v : Value) {text : String} (h : write? v = .ok (some text)) :
    IsOneLine text := by
  match v with
  | .undefined | .symbol _ | .integer _ | .cycle =>
    rw [write?] at h
    cases h
  | .null => exact isOneLine_of_write?_eq (by rw [write?]) (by decide) h
  | .bool b => exact isOneLine_of_write?_eq (by rw [write?]) (by cases b <;> decide) h
  | .number (.finite s m e) =>
    exact isOneLine_of_write?_eq (by rw [write?]) (Number.isOneLine_text _) h
  | .number .nan | .number (.infinite _) =>
    exact isOneLine_of_write?_eq (by rw [write?]; simp) (by decide) h
  | .text s => exact isOneLine_of_write?_eq (by rw [write?]) (isOneLine_quote s) h
  | .instant t => exact isOneLine_of_write?_eq (by rw [write?]) (isOneLine_quote _) h
  | .set _ | .table _ => exact isOneLine_of_write?_eq (by rw [write?]) (by decide) h
  | .list items =>
    rw [write?] at h
    exact isOneLine_of_map_enclose (by decide) (by decide)
      (fun _ htexts ↦ isOneLine_writeItems items htexts) h
  | .record fields | .error _ _ fields =>
    rw [write?] at h
    exact isOneLine_of_map_enclose (by decide) (by decide)
      (fun _ htexts ↦ isOneLine_writeFields fields htexts) h
  | .bytes bs =>
    have hbyte : ∀ text ∈ bs.map fun b ↦ toString b.toNat, IsOneLine text := by
      intro text htext
      obtain ⟨b, -, rfl⟩ := List.mem_map.1 htext
      exact isOneLine_ofList_iff.2 (newline_not_mem_toDigits b.toNat)
    refine isOneLine_of_write?_eq (by rw [write?]) ?_ h
    refine isOneLine_enclose (by decide) (by decide) fun part hpart ↦ ?_
    obtain rfl | rfl : part = _ ∨ part = _ := by simpa using hpart
    · decide
    · exact IsOneLine.append (by decide) (isOneLine_enclose (by decide) (by decide) hbyte)

theorem isOneLine_writeItems (vs : List Value) {texts : List String}
    (h : writeItems vs = .ok texts) : ∀ text ∈ texts, IsOneLine text := by
  match vs with
  | [] =>
    rw [writeItems] at h
    obtain rfl := Except.ok.inj h
    exact List.forall_mem_nil _
  | v :: vs =>
    obtain ⟨head, rest, hv, hvs, rfl⟩ := exists_of_writeItems_cons h
    refine List.forall_mem_cons.2 ⟨?_, isOneLine_writeItems vs hvs⟩
    cases head with
    | none => exact (by decide : IsOneLine "null")
    | some text => exact isOneLine_write? v hv

theorem isOneLine_writeFields (fields : Fields) {texts : List String}
    (h : writeFields fields = .ok texts) : ∀ text ∈ texts, IsOneLine text := by
  match fields with
  | [] =>
    rw [writeFields] at h
    obtain rfl := Except.ok.inj h
    exact List.forall_mem_nil _
  | (key, v) :: fields =>
    obtain ⟨head, rest, hv, hfields, rfl⟩ := exists_of_writeFields_cons h
    refine List.forall_mem_append.2 ⟨fun text htext ↦ ?_, isOneLine_writeFields fields hfields⟩
    obtain ⟨written, rfl, rfl⟩ := Option.map_eq_some_iff.1 (Option.mem_toList.1 htext)
    exact ((isOneLine_quote key).append (by decide)).append (isOneLine_write? v hv)

end

end Json

end ResourceLocator
