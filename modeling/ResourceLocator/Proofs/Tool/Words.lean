import Mathlib.Data.List.SplitBy
import ResourceLocator.Proofs.Tool.EnvName

/-!
# The words of a name

The words of a name are its runs of ASCII letters and digits, each cut where a hump rises. The four
passes that make a segment come to joining these words as capitals (`segment_eq_intercalate`): to
separate a hump is to cut the run that it is in (`runs_separateHumps`), and what the other passes
leave are the runs.

That gives the words of a text that is made of others with characters between them that are neither
letters nor digits (`words_eq_flatMap`), and so the variable of a dotted key can be read off the key
as a whole.

A segment is itself a name. Its runs are joined already, so all that is done to it is to separate
its humps (`segmentChars_of_isWords`), which now rise between digits and letters; once they are
separated there are none left (`isChain_separateHumps`).
-/

namespace ResourceLocator.EnvName

variable {name : String} {a b c : Char} {cs : List Char} {letter : Char → Bool}

/-! ### Humps -/

theorem isHump_underscore_left (b : Char) : isHump '_' b = false := by
  have hstart : ('_'.isLower || '_'.isDigit) = false := by decide
  rw [isHump, hstart, Bool.false_and]

theorem isHump_underscore_right (a : Char) : isHump a '_' = false := by
  have htop : '_'.isUpper = false := by decide
  rw [isHump, htop, Bool.and_false]

theorem isAlphanumeric_of_isHump (h : isHump a b = true) :
    isAlphanumeric a = true ∧ isAlphanumeric b = true := by
  obtain ⟨hleft, hright⟩ := Bool.and_eq_true_iff.1 h
  have hcapital : isCapital b = true := Bool.or_eq_true_iff.2 (.inl hright)
  refine ⟨Bool.or_eq_true_iff.2 ?_, isAlphanumeric_of_isCapital hcapital⟩
  exact (Bool.or_eq_true_iff.1 hleft).imp_left fun hlower ↦ Bool.or_eq_true_iff.2 (.inr hlower)

/-- Separating humps leaves the first character where it is. -/
theorem exists_separateHumps_cons (c : Char) (cs : List Char) :
    ∃ rest, separateHumps (c :: cs) = c :: rest := by
  cases cs with
  | nil => exact ⟨[], rfl⟩
  | cons d cs =>
    rw [separateHumps]
    split
    · exact ⟨_, rfl⟩
    · exact ⟨_, rfl⟩

/-- **No humps are left** when they have been separated. -/
theorem isChain_separateHumps (cs : List Char) :
    (separateHumps cs).IsChain fun a b ↦ isHump a b = false := by
  induction cs using separateHumps.induct with
  | case1 a b rest hhump ih =>
    obtain ⟨later, hlater⟩ := exists_separateHumps_cons b rest
    rw [separateHumps, if_pos hhump, hlater]
    rw [hlater] at ih
    exact .cons_cons (isHump_underscore_right a) (.cons_cons (isHump_underscore_left b) ih)
  | case2 a b rest hhump ih =>
    obtain ⟨later, hlater⟩ := exists_separateHumps_cons b rest
    rw [separateHumps, if_neg hhump, hlater]
    rw [hlater] at ih
    exact .cons_cons (Bool.eq_false_iff.2 hhump) ih
  | case3 cs hshort =>
    rcases cs with - | ⟨c, - | ⟨d, rest⟩⟩
    · exact .nil
    · exact .singleton c
    · exact absurd rfl (hshort c d rest)

/-- **A text stays as it is** if and only if it has no hump. -/
theorem separateHumps_eq_self_iff :
    separateHumps cs = cs ↔ cs.IsChain fun a b ↦ isHump a b = false := by
  refine ⟨fun h ↦ h ▸ isChain_separateHumps cs, fun h ↦ ?_⟩
  induction cs using separateHumps.induct with
  | case1 a b rest hhump _ =>
    exact absurd hhump (Bool.eq_false_iff.1 (List.isChain_cons_cons.1 h).1)
  | case2 a b rest hhump ih =>
    rw [separateHumps, if_neg hhump, ih (List.isChain_cons_cons.1 h).2]
  | case3 cs hshort =>
    rw [separateHumps]
    exact hshort

/-! ### Words -/

/-- A run, cut where a hump rises. -/
def cutHumps (run : List Char) : List (List Char) := run.splitBy fun a b ↦ !isHump a b

/-- The words of a name, on characters: its runs of letters and digits, cut at the humps. -/
def chunks (cs : List Char) : List (List Char) := (Text.runs isAlphanumeric cs).flatMap cutHumps

/-- The words of a name, in capitals. -/
def words (name : String) : List String :=
  (chunks name.toList).map fun word ↦ String.ofList (word.map Char.toUpper)

theorem cutHumps_ne_nil {run : List Char} (h : run ≠ []) : cutHumps run ≠ [] :=
  List.splitBy_ne_nil.2 h

theorem cutHumps_cons_of_isHump (h : isHump a b = true) (cs : List Char) :
    cutHumps (a :: b :: cs) = [a] :: cutHumps (b :: cs) := by
  have hcut : ([a] ++ b :: cs).splitBy (fun a b ↦ !isHump a b) =
      [a].splitBy (fun a b ↦ !isHump a b) ++ (b :: cs).splitBy fun a b ↦ !isHump a b :=
    List.splitBy_append_cons cs (by simp [h])
  exact hcut

/-- Where no hump rises, a character belongs to the first word behind it. -/
theorem cutHumps_cons_of_not_isHump (h : isHump a b = false) (cs : List Char) :
    cutHumps (a :: b :: cs) = (cutHumps (b :: cs)).modifyHead (a :: ·) := by
  obtain ⟨hflatten, hnil, hchains, hends⟩ := List.splitBy_eq_iff.1 (rfl : cutHumps (b :: cs) = _)
  generalize cutHumps (b :: cs) = pieces at hflatten hnil hchains hends
  -- The first word begins with `b`, and goes on as it did when `a` stands before it.
  obtain ⟨word, later, rfl⟩ : ∃ word later, pieces = (b :: word) :: later := by
    cases pieces with
    | nil => cases hflatten
    | cons first later =>
      cases first with
      | nil => exact absurd List.mem_cons_self hnil
      | cons d word =>
        obtain rfl : b = d := (List.cons.inj hflatten).1
        exact ⟨word, later, rfl⟩
  rw [List.forall_mem_cons] at hchains
  rw [List.isChain_cons] at hends
  refine List.splitBy_eq_iff.2 ⟨?_, ?_, ?_, ?_⟩
  · rw [hflatten]
    rfl
  · simpa using hnil
  · exact List.forall_mem_cons.2 ⟨.cons_cons (by simp [h]) hchains.1, hchains.2⟩
  · refine List.isChain_cons.2 ⟨fun next hnext ↦ ?_, hends.2⟩
    obtain ⟨hword, hhead, hcut⟩ := hends.1 next hnext
    exact ⟨List.cons_ne_nil a _, hhead, by rwa [List.getLast_cons hword]⟩

/-- **To separate the humps is to cut the runs** where they rise. -/
theorem runs_separateHumps (cs : List Char) :
    Text.runs isAlphanumeric (separateHumps cs) = chunks cs := by
  induction cs using separateHumps.induct with
  | case1 a b rest hhump ih =>
    -- There is a letter or digit on either side.
    obtain ⟨ha, hb⟩ := isAlphanumeric_of_isHump hhump
    obtain ⟨run, later, hruns⟩ := Text.exists_runs_cons hb rest
    rw [separateHumps, if_pos hhump, Text.runs_cons_of_kept ha, List.head?_cons, Option.any_some,
      if_neg (Bool.eq_false_iff.1 isAlphanumeric_underscore),
      Text.runs_cons_of_not_kept isAlphanumeric_underscore, ih, chunks, chunks,
      Text.runs_cons_of_kept ha, List.head?_cons, Option.any_some, if_pos hb, hruns,
      List.modifyHead_cons, List.flatMap_cons, List.flatMap_cons, cutHumps_cons_of_isHump hhump,
      List.cons_append]
  | case2 a b rest hhump ih =>
    obtain ⟨separated, hseparated⟩ := exists_separateHumps_cons b rest
    rw [separateHumps, if_neg hhump, chunks]
    by_cases ha : isAlphanumeric a
    · rw [Text.runs_cons_of_kept ha, Text.runs_cons_of_kept ha, hseparated, List.head?_cons,
        List.head?_cons, Option.any_some, ← hseparated, ih, chunks]
      by_cases hb : isAlphanumeric b
      · obtain ⟨run, later, hruns⟩ := Text.exists_runs_cons hb rest
        obtain ⟨word, more, hwords⟩ :=
          List.exists_cons_of_ne_nil (cutHumps_ne_nil (List.cons_ne_nil b run))
        rw [if_pos hb, if_pos hb, hruns, List.modifyHead_cons, List.flatMap_cons,
          List.flatMap_cons, cutHumps_cons_of_not_isHump (Bool.eq_false_iff.2 hhump), hwords]
        rfl
      · rw [if_neg hb, if_neg hb, List.flatMap_cons]
        rfl
    · rw [Text.runs_cons_of_not_kept (Bool.eq_false_iff.2 ha),
        Text.runs_cons_of_not_kept (Bool.eq_false_iff.2 ha), ih, chunks]
  | case3 cs hshort =>
    rcases cs with - | ⟨c, - | ⟨d, rest⟩⟩
    · rfl
    · rw [chunks, separateHumps]
      · by_cases hc : isAlphanumeric c
        · rw [Text.runs_cons_of_kept hc]
          rfl
        · rw [Text.runs_cons_of_not_kept (Bool.eq_false_iff.2 hc)]
          rfl
      · exact hshort
    · exact absurd rfl (hshort c d rest)

/-- A word is not empty. -/
theorem ne_nil_of_mem_chunks {word : List Char} (h : word ∈ chunks cs) : word ≠ [] := by
  obtain ⟨run, -, hword⟩ := List.mem_flatMap.1 h
  exact List.ne_nil_of_mem_splitBy hword

theorem ne_empty_of_mem_words {word : String} (h : word ∈ words name) : word ≠ "" := by
  obtain ⟨chunk, hchunk, rfl⟩ := List.mem_map.1 h
  simpa using ne_nil_of_mem_chunks hchunk

/-! ### Segments as joined words -/

/-- **A segment is the words of the name** with underscores between them. -/
theorem segment_eq_intercalate (name : String) :
    segment name = String.intercalate "_" (words name) := by
  have hunderscore : "_".toList = ['_'] := rfl
  have hcapital : ['_'].map Char.toUpper = ['_'] := rfl
  refine String.toList_injective ?_
  rw [segment, String.toList_ofList, segmentChars_eq, joinedRuns, runs_separateHumps,
    Text.map_intercalate, hcapital, String.toList_intercalate, hunderscore, words, List.map_map]
  simp only [Function.comp_def, String.toList_ofList]

/-! ### Names that are made of others -/

/-- **A separator that is neither a letter nor a digit** is between words. -/
theorem words_eq_flatMap (hsep : isAlphanumeric c = false) (name : String) :
    words name = (Text.split (· == c) name).flatMap words := by
  have hsplit : Text.split (· == c) name = (name.toList.splitOn c).map String.ofList := by
    rw [Text.split, Text.pieces_eq_splitOnP, List.splitOn_eq_splitOnP]
  have hruns : Text.runs isAlphanumeric name.toList =
      (name.toList.splitOn c).flatMap (Text.runs isAlphanumeric) := by
    rw [← Text.runs_intercalate hsep, List.intercalate_splitOn]
  rw [words, chunks, hruns, hsplit, List.flatMap_map, List.flatMap_assoc, List.map_flatMap]
  simp only [words, chunks, String.toList_ofList]

/-- **The variable of a dotted key** can be read off the key as a whole. -/
theorem ofKey_eq_append_segment (key : String) : ofKey key = "RELOC_" ++ segment key := by
  have hdot : isAlphanumeric '.' = false := by decide
  rw [segment_eq_intercalate, words_eq_flatMap hdot,
    ← Text.intercalate_filter_ne_empty "_" fun _ _ ↦ ne_empty_of_mem_words]
  simp only [← segment_eq_intercalate]
  rfl

/-! ### Segments of segments -/

/-- The first character of words is a letter. -/
theorem IsWords.exists_cons (h : IsWords letter cs) :
    ∃ first rest, cs = first :: rest ∧ letter first = true := by
  cases h with
  | single h => exact ⟨_, _, rfl, h⟩
  | cons h _ => exact ⟨_, _, rfl, h⟩
  | word h _ => exact ⟨_, _, rfl, h⟩

theorem separateHumps_underscore_cons (cs : List Char) :
    separateHumps ('_' :: cs) = '_' :: separateHumps cs := by
  cases cs with
  | nil => rfl
  | cons c cs => rw [separateHumps, if_neg (Bool.eq_false_iff.1 (isHump_underscore_left c))]

/-- Words whose humps are separated are words. -/
theorem isWords_separateHumps (h : IsWords letter cs) : IsWords letter (separateHumps cs) := by
  induction h with
  | single h => exact .single h
  | @cons c cs h hcs ih =>
    obtain ⟨first, rest, rfl, -⟩ := hcs.exists_cons
    rw [separateHumps]
    split
    · exact .word h ih
    · exact .cons h ih
  | @word c cs h hcs ih =>
    rw [separateHumps, if_neg (Bool.eq_false_iff.1 (isHump_underscore_right c)),
      separateHumps_underscore_cons]
    exact .word h ih

/-- **Words are their own runs**, with the underscores between them. -/
theorem joinedRuns_of_isWords (h : IsWords isAlphanumeric cs) : joinedRuns cs = cs := by
  obtain ⟨texts, htexts, rfl, -⟩ := h.exists_intercalate
  rw [joinedRuns, Text.runs_intercalate_of_kept isAlphanumeric_underscore htexts]

/-- **All that a segment does to words** in capitals is to separate their humps. -/
theorem segmentChars_of_isWords (h : IsWords isCapital cs) :
    segmentChars cs = separateHumps cs := by
  have hseparated := isWords_separateHumps h
  have hchars := List.all_eq_true.1 hseparated.all_isNameChar
  have halphanumeric : IsWords isAlphanumeric (separateHumps cs) := by
    simpa using hseparated.map (f := id) (fun _ ↦ isAlphanumeric_of_isCapital) rfl
  rw [segmentChars_eq, joinedRuns_of_isWords halphanumeric]
  exact (List.map_congr_left fun c hc ↦ toUpper_of_isNameChar (hchars c hc)).trans (List.map_id _)

/-- **Words in capitals are the segment** of the same words in small letters, which have no
humps. -/
theorem segmentChars_map_toLower (h : IsWords isCapital cs) :
    segmentChars (cs.map Char.toLower) = cs := by
  have hchars := List.all_eq_true.1 h.all_isNameChar
  have hwords : IsWords isAlphanumeric (cs.map Char.toLower) :=
    h.map (fun _ ↦ isAlphanumeric_toLower) (by decide)
  have hhumps : (cs.map Char.toLower).IsChain fun a b ↦ isHump a b = false := by
    refine (List.pairwise_of_forall_mem_list fun a _ b hb ↦ ?_).isChain
    obtain ⟨c, hc, rfl⟩ := List.mem_map.1 hb
    rw [isHump, isUpper_toLower_of_isNameChar (hchars c hc), Bool.and_false]
  rw [segmentChars_eq, separateHumps_eq_self_iff.2 hhumps, joinedRuns_of_isWords hwords,
    List.map_map]
  exact (List.map_congr_left fun c hc ↦ toUpper_toLower_of_isNameChar (hchars c hc)).trans
    (List.map_id _)

/-- In a name humps rise from digits only. -/
theorem isHump_of_isNameChar (ha : isNameChar a = true) (hb : isNameChar b = true) :
    isHump a b = (a.isDigit && b.isAlpha) := by
  rw [isHump, (isLower_of_isNameChar ha).1, Bool.false_or, (isLower_of_isNameChar hb).2]

/-- **Words in capitals are a segment of themselves** if and only if no letter follows a digit. -/
theorem segmentChars_eq_self_iff (h : IsWords isCapital cs) :
    segmentChars cs = cs ↔ cs.IsChain fun a b ↦ ¬ (a.isDigit = true ∧ b.isAlpha = true) := by
  have hchars := List.all_eq_true.1 h.all_isNameChar
  rw [segmentChars_of_isWords h, separateHumps_eq_self_iff]
  refine List.IsChain.iff_of_mem_imp fun a b ha hb ↦ ?_
  rw [isHump_of_isNameChar (hchars a ha) (hchars b hb), ← Bool.and_eq_true, Bool.not_eq_true]

/-- **The humps are gone** after the second time. -/
theorem segmentChars_segmentChars (cs : List Char) :
    segmentChars (segmentChars (segmentChars cs)) = segmentChars (segmentChars cs) := by
  rcases segmentChars_eq_nil_or_isWords cs with hnil | hwords
  · rw [hnil]
    rfl
  · rw [segmentChars_of_isWords hwords, segmentChars_of_isWords (isWords_separateHumps hwords),
      separateHumps_eq_self_iff.2 (isChain_separateHumps _)]

example : segment "s3bucket" = "S3BUCKET" ∧ segment "S3BUCKET" = "S3_BUCKET" := by decide

/-- **What a segment is**: the words of the name joined, so that it is empty or made of words in
capitals. Each text of that kind is the segment of its small letters, and of itself if and only if
no letter follows a digit in it; and a segment's segment is a segment of itself. -/
theorem segment_joins_words (name : String) :
    segment name = String.intercalate "_" (words name) ∧
      (segment name = "" ∨ IsWords isCapital (segment name).toList) ∧
      (∀ text : String, IsWords isCapital text.toList →
        segment (text.map Char.toLower) = text ∧
          (segment text = text ↔
            text.toList.IsChain fun a b ↦ ¬ (a.isDigit = true ∧ b.isAlpha = true))) ∧
      segment (segment (segment name)) = segment (segment name) := by
  refine ⟨segment_eq_intercalate name, ?_, fun text htext ↦ ⟨?_, ?_⟩, ?_⟩
  · rw [segment, String.toList_ofList]
    exact (segmentChars_eq_nil_or_isWords name.toList).imp_left fun h ↦ by rw [h]
  · refine String.toList_injective ?_
    rw [segment, String.toList_ofList, String.toList_map, segmentChars_map_toLower htext]
  · rw [← segmentChars_eq_self_iff htext, ← String.toList_inj, segment, String.toList_ofList]
  · simp only [segment, String.toList_ofList, segmentChars_segmentChars]

end ResourceLocator.EnvName
