import ResourceLocator.Proofs.Text.Blank
import ResourceLocator.Proofs.Text.Pieces

/-!
# Words and the blanks around them

A text is *spaced* into some words if it is these words, each of them without blanks, with blanks
before, between and behind them (`IsSpaced`). A text is spaced in exactly one way, by its maximal
runs without blanks (`isSpaced_iff`): what stands behind a word is empty or starts with a blank, so
that a word ends where its run does.

`Text.words` cuts the trimmed text at its stretches of blanks. Cutting follows the words of a text
that does not end with a blank (`IsSpaced.cutFrom_eq`), and trimming changes no run; so the words
are those that the text is spaced into (`words_eq_iff`), and none of them is empty.
-/

namespace ResourceLocator.Text

variable {c : Char} {cs gap word rest : List Char} {ws : List (List Char)}

/-! ### Spaced texts -/

/-- A text made of words, with blanks before, between and behind them. -/
inductive IsSpaced : List Char → List (List Char) → Prop where
  /-- Blanks only. -/
  | gap {gap : List Char} (hgap : IsGap gap) : IsSpaced gap []
  /-- A word behind blanks, and then nothing or a blank. -/
  | word {gap word rest : List Char} {ws : List (List Char)} (hgap : IsGap gap) (hne : word ≠ [])
    (hword : ∀ c ∈ word, isBlank c = false) (hrest : ∀ c ∈ rest.head?, isBlank c = true)
    (h : IsSpaced rest ws) : IsSpaced (gap ++ word ++ rest) (word :: ws)

theorem IsSpaced.nil : IsSpaced [] [] := .gap .nil

/-- Another blank in front changes no word. -/
theorem IsSpaced.cons_blank (h : IsSpaced cs ws) (hc : isBlank c = true) :
    IsSpaced (c :: cs) ws := by
  have hcons : ∀ {gap}, IsGap gap → IsGap (c :: gap) := fun hgap ↦
    List.forall_mem_cons.2 ⟨hc, hgap⟩
  cases h with
  | gap hgap => exact .gap (hcons hgap)
  | word hgap hne hword hrest h => exact .word (hcons hgap) hne hword hrest h

/-- **Every text is spaced into words.** -/
theorem exists_isSpaced (cs : List Char) : ∃ ws, IsSpaced cs ws := by
  induction cs with
  | nil => exact ⟨[], .nil⟩
  | cons c cs ih =>
    obtain ⟨ws, h⟩ := ih
    cases hc : isBlank c with
    | true => exact ⟨ws, h.cons_blank hc⟩
    | false =>
      have hone : ∀ d ∈ [c], isBlank d = false := fun d hd ↦ List.mem_singleton.1 hd ▸ hc
      -- The character begins a word of its own, or goes on with the one right behind it.
      cases h with
      | gap hgap =>
        have hhead : ∀ d ∈ cs.head?, isBlank d = true := fun d hd ↦
          hgap d (List.mem_of_mem_head? hd)
        exact ⟨[[c]], .word .nil (List.cons_ne_nil c []) hone hhead (.gap hgap)⟩
      | @word gap word rest ws hgap hne hword hrest h =>
        cases gap with
        | nil =>
          have hlonger : ∀ d ∈ c :: word, isBlank d = false := List.forall_mem_cons.2 ⟨hc, hword⟩
          exact ⟨(c :: word) :: ws, .word .nil (List.cons_ne_nil c word) hlonger hrest h⟩
        | cons d gap =>
          have hhead : ∀ e ∈ ((d :: gap) ++ word ++ rest).head?, isBlank e = true := fun e he ↦
            hgap e (Option.some.inj he ▸ List.mem_cons_self)
          exact ⟨[c] :: word :: ws, .word .nil (List.cons_ne_nil c []) hone hhead
            (.word hgap hne hword hrest h)⟩

/-- The words of a spaced text are its runs without blanks. -/
theorem IsSpaced.runs_eq (h : IsSpaced cs ws) : runs (fun c ↦ !isBlank c) cs = ws := by
  induction h with
  | @gap gap hgap =>
    have hleft : ∀ c ∈ gap, (!isBlank c) = false := fun c hc ↦ by simp [hgap c hc]
    have happend := runs_append_of_not_kept hleft []
    rwa [List.append_nil, runs_nil] at happend
  | @word gap word rest ws hgap hne hword hrest _ ih =>
    have hleft : ∀ c ∈ gap, (!isBlank c) = false := fun c hc ↦ by simp [hgap c hc]
    have hkept : ∀ c ∈ word, (!isBlank c) = true := fun c hc ↦ by simp [hword c hc]
    rw [List.append_assoc, runs_append_of_not_kept hleft, ← ih]
    cases rest with
    | nil => rw [List.append_nil, runs_of_kept hne hkept, runs_nil]
    | cons c rest =>
      have hc : (!isBlank c) = false := by simp [hrest c rfl]
      rw [runs_append_cons hc, runs_of_kept hne hkept, runs_cons_of_not_kept hc,
        List.singleton_append]

/-- **A text is spaced into its runs without blanks**, and in no other way. -/
theorem isSpaced_iff : IsSpaced cs ws ↔ runs (fun c ↦ !isBlank c) cs = ws := by
  refine ⟨IsSpaced.runs_eq, fun h ↦ ?_⟩
  obtain ⟨ws', hspaced⟩ := exists_isSpaced cs
  rwa [← hspaced.runs_eq, h] at hspaced

/-- A text has no words if it has blanks only. -/
theorem isSpaced_nil_iff : IsSpaced cs [] ↔ IsGap cs := by
  refine ⟨fun h ↦ ?_, .gap⟩
  generalize hws : ([] : List (List Char)) = ws at h
  cases h with
  | gap hgap => exact hgap
  | word => cases hws

/-- A word is not empty and has no blank. -/
theorem IsSpaced.of_mem {texts : List String} (h : IsSpaced cs (texts.map String.toList))
    {text : String} (hmem : text ∈ texts) :
    text ≠ "" ∧ ∀ c ∈ text.toList, isBlank c = false := by
  have hrun := h.runs_eq ▸ List.mem_map_of_mem (f := String.toList) hmem
  obtain ⟨hne, hkept⟩ := of_mem_runs hrun
  exact ⟨by simpa using hne, fun c hc ↦ by simpa using hkept c hc⟩

/-- **Blanks at the ends are behind or before all words.** -/
theorem isSpaced_trim_iff : IsSpaced (trim cs) ws ↔ IsSpaced cs ws := by
  obtain ⟨front, back, hfront, hback, hcs⟩ := exists_trim cs
  have hleft : ∀ c ∈ front, (!isBlank c) = false := fun c hc ↦ by simp [hfront c hc]
  have hruns : runs (fun c ↦ !isBlank c) cs = runs (fun c ↦ !isBlank c) (trim cs) := by
    conv_lhs => rw [hcs, List.append_assoc, runs_append_of_not_kept hleft]
    cases back with
    | nil => rw [List.append_nil]
    | cons c back =>
      obtain ⟨hc, hback⟩ := List.forall_mem_cons.1 hback
      rw [runs_append_cons (by simp [hc]), (IsSpaced.gap hback).runs_eq, List.append_nil]
  rw [isSpaced_iff, isSpaced_iff, hruns]

/-! ### Cutting at stretches of blanks -/

section Cut

variable {sep : Char → Bool}

/-- Separators behind a separator cut no more. -/
theorem cutFrom_gap (h : ∀ c ∈ gap, sep c = true) (cs : List Char) :
    cutFrom sep true (gap ++ cs) = cutFrom sep true cs := by
  induction gap with
  | nil => rfl
  | cons c gap ih =>
    obtain ⟨hc, hgap⟩ := List.forall_mem_cons.1 h
    rw [List.cons_append, cutFrom, hc, ← ih hgap]
    rfl

/-- A text without separators goes to the first piece. -/
theorem cutFrom_word (isInGap : Bool) (hne : word ≠ []) (h : ∀ c ∈ word, sep c = false)
    (cs : List Char) :
    cutFrom sep isInGap (word ++ cs) = (cutFrom sep false cs).modifyHead (word ++ ·) := by
  induction word generalizing isInGap with
  | nil => exact absurd rfl hne
  | cons c word ih =>
    obtain ⟨hc, hword⟩ := List.forall_mem_cons.1 h
    have hcons : cutFrom sep isInGap (c :: (word ++ cs)) =
        (cutFrom sep false (word ++ cs)).modifyHead (c :: ·) := by
      rw [cutFrom, hc]
      rfl
    rw [List.cons_append, hcons]
    cases word with
    | nil => rfl
    | cons d word =>
      rw [ih false (List.cons_ne_nil d word) hword, List.modifyHead_modifyHead]
      rfl

end Cut

/-- **Cutting follows the words** of a text that does not end with a blank. -/
theorem IsSpaced.cutFrom_eq (h : IsSpaced cs ws) (hne : cs ≠ [])
    (hlast : ∀ c ∈ cs.getLast?, isBlank c = false) : cutFrom isBlank true cs = ws := by
  induction h with
  | @gap gap hgap =>
    have hblank := hgap (gap.getLast hne) (List.getLast_mem hne)
    rw [hlast _ (List.getLast?_eq_getLast_of_ne_nil hne)] at hblank
    cases hblank
  | @word gap word rest ws hgap hword_ne hword hrest h ih =>
    rw [List.append_assoc, cutFrom_gap hgap, cutFrom_word true hword_ne hword]
    cases rest with
    | nil =>
      rw [← h.runs_eq]
      simp [cutFrom]
    | cons c rest =>
      have hc : isBlank c = true := hrest c rfl
      have hcut := ih (List.cons_ne_nil c rest) fun d hd ↦
        hlast d (by rw [List.getLast?_append, Option.mem_def.1 hd, Option.some_or]; rfl)
      simp only [cutFrom, hc] at hcut ⊢
      simpa using hcut

/-! ### The words of a text -/

/-- **The words of a text** are those that it is spaced into. -/
theorem words_eq_iff {s : String} {texts : List String} :
    words s = texts ↔ IsSpaced s.toList (texts.map String.toList) := by
  obtain ⟨ws, hspaced⟩ := exists_isSpaced s.toList
  have hwords : words s = ws.map String.ofList := by
    have htrimmed := isSpaced_trim_iff.2 hspaced
    rw [words]
    split
    · next hnil =>
      rw [hnil] at htrimmed
      rw [← htrimmed.runs_eq]
      rfl
    · next hne =>
      have hends := isTrimmed_trim s.toList
      -- The text does not start with a blank, so that no stretch has to be thought of before it.
      obtain ⟨c, cs, hcs⟩ := List.exists_cons_of_ne_nil (hne ·)
      have hstart : cut isBlank (trim s.toList) = cutFrom isBlank true (trim s.toList) := by
        rw [hcs, cut, cutFrom, cutFrom, hends.head c (by rw [hcs]; rfl)]
        rfl
      rw [hstart, htrimmed.cutFrom_eq (hne ·) hends.last]
  constructor
  · rintro rfl
    rw [hwords, List.map_map]
    simpa [Function.comp_def] using hspaced
  · intro h
    rw [hwords, ← hspaced.runs_eq, h.runs_eq, List.map_map]
    simp [Function.comp_def]

/-- Words that are joined by a space are spaced. -/
theorem isSpaced_intercalate {texts : List String}
    (h : ∀ text ∈ texts, text ≠ "" ∧ ∀ c ∈ text.toList, isBlank c = false) :
    IsSpaced (String.intercalate " " texts).toList (texts.map String.toList) := by
  induction texts with
  | nil => exact .nil
  | cons text texts ih =>
    obtain ⟨⟨hne, hword⟩, hrest⟩ := List.forall_mem_cons.1 h
    have hne : text.toList ≠ [] := by simpa using hne
    cases texts with
    | nil =>
      have hone : IsSpaced ([] ++ text.toList ++ []) [text.toList] :=
        .word .nil hne hword (fun c hc ↦ by cases hc) .nil
      rwa [List.nil_append, List.append_nil] at hone
    | cons next texts =>
      have hspace : isBlank ' ' = true := by decide
      have hlist : (String.intercalate " " (text :: next :: texts)).toList =
          [] ++ text.toList ++ ' ' :: (String.intercalate " " (next :: texts)).toList := by
        rw [String.intercalate_cons_of_ne_nil (List.cons_ne_nil next texts)]
        simp
      rw [hlist, List.map_cons]
      exact .word .nil hne hword (fun c hc ↦ Option.some.inj hc ▸ hspace)
        ((ih hrest).cons_blank hspace)

end ResourceLocator.Text
