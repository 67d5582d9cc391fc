import ResourceLocator.Proofs.FirstOccurrence
import ResourceLocator.Proofs.Locate.Layers
import ResourceLocator.Proofs.Session.Recorded

/-!
# The directories that a value adds

The pieces of a value are its runs of characters that separate nothing, each at its first occurrence
(`pieces_eq_eraseDups`), so that any number of separators at either end and one or more between two
pieces make no difference. Each piece is asked about once and in order, until a question fails
(`Selection`).

If no question fails, a test decides which pieces are added (`accepted_eq`). Then two values one
after the other add what the first adds, and what the second adds beyond its pieces
(`accepted_append`); and what is added, written with any separators, adds itself again
(`accepted_of_runs`).
-/

namespace ResourceLocator.Extra

variable {raw piece : String} {pieces' : List String} {record : List Exchange}
  {outcome : Except Failure (List String)} {w : World}

/-! ### Pieces -/

/-- The texts between the separators of a value that are not empty, with repetitions. -/
def runs (raw : String) : List String :=
  (Text.runs (fun c ↦ !isSeparator c) raw.toList).map String.ofList

theorem runs_eq_filter (raw : String) :
    runs raw = ((raw.toList.splitOnP isSeparator).map String.ofList).filter (· ≠ "") := by
  rw [← Text.pieces_eq_splitOnP, List.filter_map, runs, Text.runs]
  simp only [Bool.not_not]
  refine congrArg (List.map String.ofList) (List.filter_congr fun cs _ ↦ ?_)
  cases cs <;> simp

/-- **The pieces of a value** are its runs, each once. -/
theorem pieces_eq_eraseDups (raw : String) : pieces raw = (runs raw).eraseDups := by
  rw [runs_eq_filter, pieces_eq]

theorem nodup_pieces (raw : String) : (pieces raw).Nodup := by
  rw [pieces_eq_eraseDups]
  exact nodup_eraseDups _

/-- A run is a text between separators that is not empty. -/
theorem of_mem_runs (h : piece ∈ runs raw) :
    piece ≠ "" ∧ ∀ c ∈ piece.toList, isSeparator c = false := by
  obtain ⟨cs, hcs, rfl⟩ := List.mem_map.1 h
  obtain ⟨hne, hkept⟩ := Text.of_mem_runs hcs
  refine ⟨by simpa using hne, fun c hc ↦ ?_⟩
  simpa using hkept c (by simpa using hc)

/-- A separator keeps the runs of two values apart. -/
theorem runs_append_colon (raw other : String) :
    runs (raw ++ ":" ++ other) = runs raw ++ runs other := by
  have hcs : (raw ++ ":" ++ other).toList = raw.toList ++ ':' :: other.toList := by simp
  rw [runs, hcs, Text.runs_append_cons (by decide), List.map_append]
  rfl

/-! ### One question for each piece -/

/-- What is recorded of a piece that is answered. -/
def answered (answer : String × Bool) : Exchange := ⟨answer.1, .ok answer.2⟩

/-- How pieces are selected: what is recorded, and what it comes to. -/
inductive Selection : List String → List Exchange → Except Failure (List String) → Prop where
  /-- Every piece is answered, and those with a yes are selected. -/
  | all (answers : List (String × Bool)) :
    Selection (answers.map (·.1)) (answers.map answered)
      (.ok ((answers.filter (·.2)).map (·.1)))
  /-- Pieces are answered until the question about one of them fails. -/
  | failed (answers : List (String × Bool)) (piece : String) (rest : List String)
    (failure : Failure) :
    Selection (answers.map (·.1) ++ piece :: rest)
      (answers.map answered ++ [⟨piece, .error failure⟩]) (.error failure)

theorem Selection.cons (h : Selection pieces' record outcome) (piece : String) (answer : Bool) :
    Selection (piece :: pieces') (answered (piece, answer) :: record)
      (outcome.map fun more ↦ if answer then piece :: more else more) := by
  cases h with
  | all answers =>
    have hall := Selection.all ((piece, answer) :: answers)
    cases answer <;> exact hall
  | failed answers last rest failure =>
    exact Selection.failed ((piece, answer) :: answers) last rest failure

/-- **Each piece is asked about once and in order**, until a question fails. That it is recorded
makes no difference. -/
theorem exists_selection (isDirectory : String → Session Bool) (pieces' : List String) (w : World)
    (record : List Exchange) :
    ∃ asked outcome after,
      (select (Recorded.ask isDirectory) pieces').runIn w record =
        (outcome, after, record ++ asked) ∧
      (select isDirectory pieces').runIn w = (outcome, after) ∧
      Selection pieces' asked outcome := by
  induction pieces' generalizing w record with
  | nil => exact ⟨[], .ok [], w, by rw [List.append_nil]; rfl, rfl, .all []⟩
  | cons piece rest ih =>
    rcases hasked : (isDirectory piece).runIn w with ⟨answer, mid⟩
    cases answer with
    | error failure =>
      exact ⟨_, _, mid, Recorded.runIn_ask_bind_of_error hasked _ record,
        Session.runIn_bind_of_error hasked _, .failed [] piece rest failure⟩
    | ok answer =>
      obtain ⟨asked, outcome, after, hrecorded, hrun, hselection⟩ :=
        ih mid (record ++ [answered (piece, answer)])
      refine ⟨_, _, after, ?_, ?_, hselection.cons piece answer⟩
      · rw [List.append_assoc] at hrecorded
        refine (Recorded.runIn_ask_bind_of_ok hasked _ record).trans ?_
        cases outcome with
        | ok more => exact bind_apply_of_ok hrecorded _
        | error failure => exact bind_apply_of_error hrecorded _
      · refine (Session.runIn_bind_of_ok hasked _).trans ?_
        cases outcome with
        | ok more => exact Session.runIn_bind_of_ok hrun _
        | error failure => exact Session.runIn_bind_of_error hrun _

/-- What is selected from pieces without repetitions has none. -/
theorem Selection.nodup {result : List String} (h : Selection pieces' record (.ok result))
    (hpieces : pieces'.Nodup) : result.Nodup := by
  cases h with
  | all answers => exact hpieces.sublist (List.filter_sublist.map _)

/-! ### Tests that do not fail -/

/-- The directories that a value adds, if a test decides which of its pieces are some. -/
def accepted (accepts : String → Bool) (raw : String) : List String :=
  Id.run (parse accepts (some raw))

theorem select_eq_filter (accepts : String → Bool) (pieces' : List String) :
    select (m := Id) accepts pieces' = pieces'.filter accepts := by
  induction pieces' with
  | nil => rfl
  | cons piece rest ih =>
    rw [select, ih, List.filter_cons]
    rfl

theorem accepted_eq (accepts : String → Bool) (raw : String) :
    accepted accepts raw = (pieces raw).filter accepts :=
  select_eq_filter accepts (pieces raw)

/-- In a session the test decides too, and does nothing else. -/
theorem runIn_parse_pure (accepts : String → Bool) (raw : String) (w : World) :
    Session.runIn (parse (fun piece ↦ pure (accepts piece)) (some raw)) w =
      (.ok (accepted accepts raw), w) := by
  rw [accepted_eq]
  show Session.runIn (select _ (pieces raw)) w = _
  induction pieces raw with
  | nil => rfl
  | cons piece rest ih =>
    have hpiece : (pure (accepts piece) : Session Bool).runIn w = (.ok (accepts piece), w) := rfl
    rw [select, Session.runIn_bind_of_ok hpiece, Session.runIn_bind_of_ok ih, List.filter_cons]
    rfl

/-- **One value after another** adds what the first adds, and what the second adds beyond the pieces
of the first. -/
theorem accepted_append (accepts : String → Bool) (raw other : String) :
    accepted accepts (raw ++ ":" ++ other) = accepted accepts raw ++
      (accepted accepts other).filter fun piece ↦ piece ∉ Text.split isSeparator raw := by
  have hbeyond : (runs other).removeAll (runs raw) =
      (runs other).filter fun piece ↦ piece ∉ Text.split isSeparator raw := by
    refine List.filter_congr fun piece hpiece ↦ ?_
    have hmem : piece ∈ runs raw ↔ piece ∈ Text.split isSeparator raw := by
      rw [runs_eq_filter, ← Text.pieces_eq_splitOnP, List.mem_filter]
      exact and_iff_left (decide_eq_true (of_mem_runs hpiece).1)
    simp [hmem]
  rw [accepted_eq, accepted_eq, accepted_eq, pieces_eq_eraseDups, pieces_eq_eraseDups,
    pieces_eq_eraseDups, runs_append_colon, List.eraseDups_append, List.filter_append, hbeyond,
    eraseDups_filter, List.filter_filter, List.filter_filter]
  refine congrArg _ (List.filter_congr fun piece _ ↦ Bool.and_comm _ _)

/-- **What is added adds itself again**, however it is written. -/
theorem accepted_of_runs {accepts : String → Bool} {text : String}
    (h : runs text = accepted accepts raw) : accepted accepts text = accepted accepts raw := by
  have hnodup : (accepted accepts raw).Nodup := by
    rw [accepted_eq]
    exact (nodup_pieces raw).sublist List.filter_sublist
  rw [accepted_eq accepts text, pieces_eq_eraseDups, h, eraseDups_of_nodup hnodup, accepted_eq,
    List.filter_filter]
  exact List.filter_congr fun piece _ ↦ Bool.and_self _

/-! ### Ways of writing pieces -/

/-- A text of separators only, or of nothing. -/
def IsGap (gap : String) : Prop := ∀ c ∈ gap.toList, isSeparator c = true

/-- Pieces, each with the gap after it, behind a first gap. -/
def written (front : String) (parts : List (String × String)) : String :=
  front ++ String.join (parts.map fun part ↦ part.1 ++ part.2)

theorem runs_append_of_isGap {gap : String} (h : IsGap gap) (text : String) :
    runs (gap ++ text) = runs text := by
  rw [runs, String.toList_append, Text.runs_append_of_not_kept fun c hc ↦ by simp [h c hc]]
  rfl

/-- A piece with the gap after it is one more run; without a gap it has to be the last one. -/
theorem runs_part_append {gap rest : String} (hne : piece ≠ "")
    (hpiece : ∀ c ∈ piece.toList, isSeparator c = false) (hgap : IsGap gap)
    (hrest : gap ≠ "" ∨ rest = "") : runs (piece ++ gap ++ rest) = piece :: runs rest := by
  have hkept : ∀ c ∈ piece.toList, (!isSeparator c) = true := fun c hc ↦ by simp [hpiece c hc]
  have hleft : ∀ c ∈ gap.toList, (!isSeparator c) = false := fun c hc ↦ by simp [hgap c hc]
  rw [runs, String.toList_append, String.toList_append,
    Text.runs_append_gap_append (by simpa using hne) hkept hleft (by simpa using hrest),
    List.map_cons, String.ofList_toList]
  rfl

/-- **Pieces that are written with gaps between them are the runs.** -/
theorem runs_written {front : String} {parts : List (String × String)} (hfront : IsGap front)
    (hpieces : ∀ part ∈ parts, part.1 ≠ "" ∧ ∀ c ∈ part.1.toList, isSeparator c = false)
    (hgaps : ∀ part ∈ parts, IsGap part.2) (hbetween : ∀ part ∈ parts.dropLast, part.2 ≠ "") :
    runs (written front parts) = parts.map (·.1) := by
  rw [written, runs_append_of_isGap hfront]
  induction parts with
  | nil => rfl
  | cons part parts ih =>
    rw [List.forall_mem_cons] at hpieces hgaps
    have hrest : part.2 ≠ "" ∨ String.join (parts.map fun part ↦ part.1 ++ part.2) = "" := by
      cases parts with
      | nil => exact .inr rfl
      | cons next parts => exact .inl (hbetween part (by simp))
    have hlater : ∀ next ∈ parts.dropLast, next.2 ≠ "" := by
      intro next hnext
      refine hbetween next ?_
      cases parts with
      | nil => exact absurd hnext List.not_mem_nil
      | cons _ _ => exact List.mem_cons_of_mem _ hnext
    rw [List.map_cons, String.join_cons, runs_part_append hpieces.1.1 hpieces.1.2 hgaps.1 hrest,
      ih hpieces.2 hgaps.2 hlater, List.map_cons]

theorem runs_intercalate_colon {pieces' : List String}
    (h : ∀ piece ∈ pieces', piece ≠ "" ∧ ∀ c ∈ piece.toList, isSeparator c = false) :
    runs (String.intercalate ":" pieces') = pieces' := by
  have hcolon : ":".toList = [':'] := rfl
  have hkept : ∀ text ∈ pieces'.map String.toList,
      text ≠ [] ∧ ∀ c ∈ text, (!isSeparator c) = true := by
    intro text htext
    obtain ⟨piece, hpiece, rfl⟩ := List.mem_map.1 htext
    exact ⟨by simpa using (h piece hpiece).1, fun c hc ↦ by simp [(h piece hpiece).2 c hc]⟩
  rw [runs, String.toList_intercalate, hcolon, Text.runs_intercalate_of_kept (by decide) hkept,
    List.map_map]
  simp

theorem isSeparator_iff {c : Char} : isSeparator c = true ↔ c = ':' ∨ c = ';' := by
  simp [isSeparator]

/-- **Each piece of a value is asked about once**, in the order of first occurrences, and those with
a yes are added in that order, without repetitions. A question that fails ends it with that failure,
and the pieces after it are not asked about. With a test that does not fail, what is added, written
with colons or with any gaps of separators, adds itself again; and one value after another adds what
the first adds, and what the second adds beyond the pieces of the first. -/
theorem parse_asks_each_piece_once (raw : String) (isDirectory : String → Session Bool)
    (accepts : String → Bool) (w : World) :
    let run := (parse (Recorded.ask isDirectory) (some raw)).run w
    Session.runIn (parse isDirectory (some raw)) w = (run.outcome, run.world) ∧
    pieces raw = (((raw.toList.splitOnP isSeparator).map String.ofList).filter
      (· ≠ "")).eraseDups ∧
    (∀ c, isSeparator c = true ↔ c = ':' ∨ c = ';') ∧ (pieces raw).Nodup ∧
    Selection (pieces raw) run.record run.outcome ∧
    (∀ result, run.outcome = .ok result → result.Nodup) ∧
    Session.runIn (parse (fun piece ↦ pure (accepts piece)) (some raw)) w =
      (.ok (accepted accepts raw), w) ∧
    accepted accepts (String.intercalate ":" (accepted accepts raw)) = accepted accepts raw ∧
    (∀ (front : String) (parts : List (String × String)), IsGap front →
      (∀ part ∈ parts, IsGap part.2) → (∀ part ∈ parts.dropLast, part.2 ≠ "") →
      parts.map (·.1) = accepted accepts raw →
      accepted accepts (written front parts) = accepted accepts raw) ∧
    ∀ other, accepted accepts (raw ++ ":" ++ other) = accepted accepts raw ++
      (accepted accepts other).filter fun piece ↦ piece ∉ Text.split isSeparator raw := by
  intro run
  obtain ⟨asked, outcome, after, hrecorded, hrun, hselection⟩ :=
    exists_selection isDirectory (pieces raw) w []
  have houtcome : run.outcome = outcome := congrArg Prod.fst hrecorded
  have hworld : run.world = after := congrArg (·.2.1) hrecorded
  have hrecord : run.record = asked := congrArg (·.2.2) hrecorded
  have hproper : ∀ piece ∈ accepted accepts raw,
      piece ≠ "" ∧ ∀ c ∈ piece.toList, isSeparator c = false := by
    intro piece hpiece
    rw [accepted_eq, pieces_eq_eraseDups] at hpiece
    exact of_mem_runs (List.mem_eraseDups.1 (List.mem_filter.1 hpiece).1)
  rw [houtcome, hworld, hrecord]
  refine ⟨hrun, pieces_eq raw, fun _ ↦ isSeparator_iff, nodup_pieces raw, hselection, ?_,
    runIn_parse_pure accepts raw w, accepted_of_runs (runs_intercalate_colon hproper), ?_,
    accepted_append accepts raw⟩
  · rintro result rfl
    exact hselection.nodup (nodup_pieces raw)
  · intro front parts hfront hgaps hbetween hparts
    refine accepted_of_runs
      ((runs_written hfront (fun part hpart ↦ ?_) hgaps hbetween).trans hparts)
    exact hproper part.1 (hparts ▸ List.mem_map_of_mem hpart)

end ResourceLocator.Extra
