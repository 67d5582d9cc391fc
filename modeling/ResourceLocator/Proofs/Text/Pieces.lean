import ResourceLocator.Text.Pieces

/-!
# Pieces of a text, and the list operation behind them

`Text.pieces` is the library's `List.splitOnP`, which brings that operation's lemmas with it.
What the library does not say is what the pieces hold: characters of the text, and no separator.

The runs of a text are its pieces without the empty ones. A character that is not kept cuts a text
into two with runs of their own, and further ones beside it change nothing; so the runs of texts
that are joined by one are the runs of each (`runs_intercalate`).
-/

namespace ResourceLocator.Text

variable {sep : Char → Bool}

theorem pieces_eq_splitOnP (cs : List Char) : pieces sep cs = cs.splitOnP sep := by
  induction cs with
  | nil => rfl
  | cons c cs ih =>
    rw [List.splitOnP_cons_eq_if_modifyHead, pieces, ih]
    split
    · rfl
    · cases hp : cs.splitOnP sep with
      | nil => exact absurd hp (List.splitOnP_ne_nil sep cs)
      | cons p ps => rfl

theorem pieces_cons_of_not_sep {c : Char} (h : sep c = false) (cs : List Char) :
    pieces sep (c :: cs) = (pieces sep cs).modifyHead (c :: ·) := by
  rw [pieces_eq_splitOnP, pieces_eq_splitOnP, List.splitOnP_cons_eq_if_modifyHead, h]
  rfl

/-- **A piece holds characters of the text, and no separator.** -/
theorem mem_and_sep_of_mem_pieces {cs p : List Char} (hp : p ∈ pieces sep cs) {c : Char}
    (hc : c ∈ p) : c ∈ cs ∧ sep c = false := by
  induction cs generalizing p with
  | nil =>
    obtain rfl : p = [] := by simpa [pieces] using hp
    exact absurd hc List.not_mem_nil
  | cons d cs ih =>
    have hlater : ∀ {q}, q ∈ pieces sep cs → c ∈ q → c ∈ d :: cs ∧ sep c = false :=
      fun hq hcq ↦ ⟨List.mem_cons_of_mem _ (ih hq hcq).1, (ih hq hcq).2⟩
    by_cases hd : sep d = true
    · rw [pieces, if_pos hd] at hp
      rcases List.mem_cons.1 hp with rfl | hp
      · exact absurd hc List.not_mem_nil
      · exact hlater hp hc
    · -- The first piece of the rest gets `d` in front of it.
      obtain ⟨q, qs, hqs⟩ := List.exists_cons_of_ne_nil (pieces_ne_nil sep cs)
      simp only [pieces, if_neg hd, hqs] at hp
      rcases List.mem_cons.1 hp with rfl | hp
      · rcases List.mem_cons.1 hc with rfl | hc
        · exact ⟨List.mem_cons_self, by simpa using hd⟩
        · exact hlater (hqs ▸ List.mem_cons_self) hc
      · exact hlater (hqs ▸ List.mem_cons_of_mem _ hp) hc

/-! ### Runs -/

section Runs

variable {keep : Char → Bool}

/-- **A character that is not kept** keeps the runs of two texts apart. -/
theorem runs_append_cons {c : Char} (h : keep c = false) (as bs : List Char) :
    runs keep (as ++ c :: bs) = runs keep as ++ runs keep bs := by
  have hsep : (fun c ↦ !keep c) c = true := by simp [h]
  rw [runs, pieces_append_cons hsep, List.filter_append]
  rfl

@[simp]
theorem runs_nil : runs keep [] = [] := rfl

/-- A character that is not kept is no part of a run. -/
theorem runs_cons_of_not_kept {c : Char} (h : keep c = false) (cs : List Char) :
    runs keep (c :: cs) = runs keep cs := by
  have hcons : runs keep ([] ++ c :: cs) = runs keep [] ++ runs keep cs :=
    runs_append_cons h [] cs
  rwa [List.nil_append, runs_nil, List.nil_append] at hcons

/-- Characters that are not kept leave no trace in front of a text. -/
theorem runs_append_of_not_kept {gap : List Char} (h : ∀ c ∈ gap, keep c = false)
    (cs : List Char) : runs keep (gap ++ cs) = runs keep cs := by
  induction gap with
  | nil => rfl
  | cons c gap ih =>
    rw [List.cons_append, runs_cons_of_not_kept (h c List.mem_cons_self),
      ih fun d hd ↦ h d (List.mem_cons_of_mem _ hd)]

/-- A text of kept characters is one run. -/
theorem runs_of_kept {cs : List Char} (hne : cs ≠ []) (h : ∀ c ∈ cs, keep c = true) :
    runs keep cs = [cs] := by
  have hone : pieces (fun c ↦ !keep c) cs = [cs] :=
    pieces_eq_singleton fun c hc ↦ by simp [h c hc]
  rw [runs, hone, List.filter_cons_of_pos (by simpa using hne), List.filter_nil]

/-- A run is not empty, and all of its characters are kept. -/
theorem of_mem_runs {cs run : List Char} (h : run ∈ runs keep cs) :
    run ≠ [] ∧ ∀ c ∈ run, keep c = true := by
  obtain ⟨hmem, hne⟩ := List.mem_filter.1 h
  exact ⟨by simpa using hne, fun c hc ↦ by simpa using (mem_and_sep_of_mem_pieces hmem hc).2⟩

/-- A character that is kept stands at the start of the first run. -/
theorem exists_runs_cons {c : Char} (h : keep c = true) (cs : List Char) :
    ∃ run rest, runs keep (c :: cs) = (c :: run) :: rest := by
  obtain ⟨p, ps, hps⟩ := List.exists_cons_of_ne_nil (pieces_ne_nil (fun c ↦ !keep c) cs)
  refine ⟨p, ps.filter (!·.isEmpty), ?_⟩
  rw [runs, pieces_cons_of_not_sep (by simp [h]), hps, List.modifyHead_cons,
    List.filter_cons_of_pos rfl]

/-- **A character that is kept** goes on with the run right behind it, or is a run of its own. -/
theorem runs_cons_of_kept {c : Char} (h : keep c = true) (cs : List Char) :
    runs keep (c :: cs) =
      if cs.head?.any keep then (runs keep cs).modifyHead (c :: ·) else [c] :: runs keep cs := by
  have hone : runs keep [c] = [[c]] :=
    runs_of_kept (List.cons_ne_nil c []) fun d hd ↦ List.mem_singleton.1 hd ▸ h
  cases cs with
  | nil => exact hone
  | cons d cs =>
    rw [List.head?_cons, Option.any_some]
    cases hd : keep d with
    | true =>
      obtain ⟨p, ps, hps⟩ := List.exists_cons_of_ne_nil (pieces_ne_nil (fun c ↦ !keep c) cs)
      rw [runs, runs, pieces_cons_of_not_sep (by simp [h]), pieces_cons_of_not_sep (by simp [hd]),
        hps]
      rfl
    | false =>
      have hboth : runs keep ([c] ++ d :: cs) = runs keep [c] ++ runs keep cs :=
        runs_append_cons hd [c] cs
      rw [List.singleton_append, hone, List.singleton_append] at hboth
      rw [hboth, runs_cons_of_not_kept hd]
      rfl

/-- **The runs of texts that are joined** by a character that is not kept are those of each. -/
theorem runs_intercalate {c : Char} (h : keep c = false) (texts : List (List Char)) :
    runs keep ([c].intercalate texts) = texts.flatMap (runs keep) := by
  induction texts with
  | nil => rfl
  | cons text texts ih =>
    cases texts with
    | nil => rw [List.intercalate_singleton, List.flatMap_singleton]
    | cons next texts =>
      rw [List.intercalate_cons_cons, List.append_assoc, List.singleton_append, runs_append_cons h,
        ih]
      rfl

/-- **Texts of kept characters** that are joined by another one are the runs. -/
theorem runs_intercalate_of_kept {c : Char} (h : keep c = false) {texts : List (List Char)}
    (htexts : ∀ text ∈ texts, text ≠ [] ∧ ∀ d ∈ text, keep d = true) :
    runs keep ([c].intercalate texts) = texts := by
  rw [runs_intercalate h]
  induction texts with
  | nil => rfl
  | cons text texts ih =>
    rw [List.forall_mem_cons] at htexts
    rw [List.flatMap_cons, runs_of_kept htexts.1.1 htexts.1.2, ih htexts.2, List.singleton_append]

/-- **A text of kept characters and a gap** before a text is one more run of it; without a gap it
has to be the last one. -/
theorem runs_append_gap_append {first gap rest : List Char} (hne : first ≠ [])
    (hfirst : ∀ c ∈ first, keep c = true) (hgap : ∀ c ∈ gap, keep c = false)
    (hrest : gap ≠ [] ∨ rest = []) :
    runs keep (first ++ gap ++ rest) = first :: runs keep rest := by
  cases gap with
  | nil =>
    obtain rfl := hrest.resolve_left (fun h ↦ h rfl)
    rw [List.append_nil, List.append_nil, runs_of_kept hne hfirst, runs_nil]
  | cons c gap =>
    have hc : keep c = false := hgap c List.mem_cons_self
    rw [List.append_assoc, List.cons_append, runs_append_cons hc, runs_of_kept hne hfirst,
      runs_append_of_not_kept fun d hd ↦ hgap d (List.mem_cons_of_mem _ hd), List.singleton_append]

end Runs

/-! ### Joining -/

theorem map_intercalate {α β : Type} (f : α → β) (sep : List α) (texts : List (List α)) :
    (sep.intercalate texts).map f = (sep.map f).intercalate (texts.map (List.map f)) := by
  induction texts with
  | nil => rfl
  | cons text texts ih =>
    cases texts with
    | nil => simp
    | cons next texts =>
      rw [List.intercalate_cons_cons, List.map_append, List.map_append, ih]
      exact (List.intercalate_cons_cons).symm

theorem intercalate_eq_empty_iff (sep : String) (texts : List String)
    (h : ∀ text ∈ texts, text ≠ "") : String.intercalate sep texts = "" ↔ texts = [] := by
  refine ⟨fun hempty ↦ ?_, fun hnil ↦ hnil ▸ String.intercalate_nil⟩
  cases texts with
  | nil => rfl
  | cons text texts =>
    -- The first text would have to be empty.
    refine absurd ?_ (h text List.mem_cons_self)
    by_cases hrest : texts = []
    · rwa [hrest, String.intercalate_singleton] at hempty
    · rw [String.intercalate_cons_of_ne_nil hrest, String.append_assoc] at hempty
      exact (String.append_eq_empty_iff.1 hempty).1

/-- To join the texts that several lists make, leaving out the empty ones, is to join the lists. -/
theorem intercalate_filter_ne_empty {α : Type} (sep : String) {parts : α → List String}
    (hparts : ∀ a, ∀ part ∈ parts a, part ≠ "") (as : List α) :
    String.intercalate sep ((as.map fun a ↦ String.intercalate sep (parts a)).filter (· ≠ "")) =
      String.intercalate sep (as.flatMap parts) := by
  induction as with
  | nil => rfl
  | cons a as ih =>
    rw [List.map_cons, List.flatMap_cons]
    by_cases hnone : parts a = []
    · -- A list with no texts makes the empty one.
      rwa [hnone, List.nil_append, String.intercalate_nil, List.filter_cons_of_neg (by simp)]
    · have hne : String.intercalate sep (parts a) ≠ "" :=
        mt (intercalate_eq_empty_iff sep (parts a) (hparts a)).1 hnone
      rw [List.filter_cons_of_pos (by simpa using hne)]
      have hrest := intercalate_eq_empty_iff sep (as.flatMap parts) fun part hpart ↦ by
        obtain ⟨b, -, hb⟩ := List.mem_flatMap.1 hpart
        exact hparts b part hb
      have hkept := intercalate_eq_empty_iff sep
        ((as.map fun a ↦ String.intercalate sep (parts a)).filter (· ≠ ""))
        fun text htext ↦ by simpa using (List.mem_filter.1 htext).2
      rw [ih, hrest] at hkept
      by_cases hlast : as.flatMap parts = []
      · rw [hkept.1 hlast, hlast, List.append_nil, String.intercalate_singleton]
      · rw [String.intercalate_cons_of_ne_nil (mt hkept.2 hlast), ih,
          String.intercalate_append_of_ne_nil hnone hlast]

end ResourceLocator.Text
