import ResourceLocator.Proofs.Path.Location

/-!
# Reading that stays inside a place

Names that never lead out of where they start lead to the same place below every start
(`foldl_step_of_readWithin`). This is what makes the position of an installation irrelevant to
what is found in it.

The rest of the module says what the path of something inside an installation looks like: a
*place* (`IsPlace`), a slash, and a *suffix* (`IsSuffix`): proper names between slashes, perhaps
with a slash at the end (`IsSuffix.exists_names`).
-/

namespace ResourceLocator

/-! ### Reading that stays inside -/

namespace Location

/-- One name down, unless it leads up from the start. -/
def stepWithin? (loc : Location) (name : String) : Option Location :=
  if name = ".." ∧ loc = [] then none else some (loc.step name)

/-- Reads names from a start that they must not lead out of. -/
def readWithin? (loc : Location) (names : List String) : Option Location :=
  names.foldlM stepWithin? loc

variable {loc rest : Location} {name : String} {names : List String}

/-- A step that stays inside is the same step below every start. -/
theorem step_of_stepWithin (h : loc.stepWithin? name = some rest) (start : Location) :
    (start ++ loc).step name = start ++ rest := by
  unfold stepWithin? at h
  split at h
  · cases h
  · rename_i hinside
    obtain rfl := Option.some.inj h
    by_cases hup : name = ".."
    · subst hup
      have hloc : loc ≠ [] := fun hnil ↦ hinside ⟨rfl, hnil⟩
      rw [step_dotDot, step_dotDot, List.dropLast_append_of_ne_nil hloc]
    · by_cases hstay : name = "" ∨ name = "."
      · rcases hstay with rfl | rfl <;> simp
      · rw [not_or] at hstay
        simp [step, hup, hstay.1, hstay.2]

theorem readWithin?_cons (loc : Location) (name : String) (names : List String) :
    loc.readWithin? (name :: names) = (loc.stepWithin? name).bind (·.readWithin? names) :=
  List.foldlM_cons

theorem readWithin?_append (loc : Location) (names more : List String) :
    loc.readWithin? (names ++ more) = (loc.readWithin? names).bind (·.readWithin? more) :=
  List.foldlM_append

/-- **Names that stay inside lead to the same place below every start.** -/
theorem foldl_step_of_readWithin (h : loc.readWithin? names = some rest) (start : Location) :
    names.foldl step (start ++ loc) = start ++ rest := by
  induction names generalizing loc with
  | nil =>
    obtain rfl : loc = rest := Option.some.inj h
    rfl
  | cons name names ih =>
    rw [readWithin?_cons] at h
    obtain ⟨next, hnext, hrest⟩ := Option.bind_eq_some_iff.1 h
    rw [List.foldl_cons, step_of_stepWithin hnext, ih hrest]

/-- Proper names stay inside. -/
theorem readWithin?_of_isNormal {below : Location} (hbelow : below.IsNormal) (loc : Location) :
    loc.readWithin? below = some (loc ++ below) := by
  induction below generalizing loc with
  | nil => simp [readWithin?]
  | cons name below ih =>
    have hname : Path.IsName name := hbelow name List.mem_cons_self
    have hstep : loc.stepWithin? name = some (loc ++ [name]) := by
      rw [stepWithin?, if_neg fun h ↦ hname.ne_dotDot h.1, step_of_isName hname]
    rw [readWithin?_cons, hstep, Option.bind_some,
      ih fun n hn ↦ hbelow n (List.mem_cons_of_mem _ hn), List.append_assoc,
      List.singleton_append]

end Location

/-! ### What stands inside an installation -/

namespace Path

variable {path name : String} {names done : List String}

theorem mem_relativeStep {other : String} (h : name ∈ relativeStep done other) :
    name ∈ done ∨ (name = other ∧ name ≠ "" ∧ name ≠ ".") := by
  unfold relativeStep at h
  split at h
  · exact .inl h
  · rename_i hstay
    have hother : other ≠ "" ∧ other ≠ "." := by simpa using hstay
    split at h
    · rcases List.mem_append.1 h with h | h
      · exact .inl h
      · rename_i hup
        have hdots : other = ".." := by simp_all
        obtain rfl : name = ".." := List.mem_singleton.1 h
        exact .inr ⟨hdots.symm, by decide, by decide⟩
    · split at h
      · exact .inl (List.dropLast_subset _ h)
      · rcases List.mem_append.1 h with h | h
        · exact .inl h
        · obtain rfl : name = other := List.mem_singleton.1 h
          exact .inr ⟨rfl, hother⟩

theorem mem_foldl_relativeStep (h : name ∈ names.foldl relativeStep done) :
    name ∈ done ∨ (name ∈ names ∧ name ≠ "" ∧ name ≠ ".") := by
  induction names generalizing done with
  | nil => exact .inl h
  | cons other names ih =>
    rcases ih h with h | ⟨h, hproper⟩
    · rcases mem_relativeStep h with h | ⟨rfl, hproper⟩
      · exact .inl h
      · exact .inr ⟨List.mem_cons_self, hproper⟩
    · exact .inr ⟨List.mem_cons_of_mem _ h, hproper⟩

/-- The text of proper names is neither empty nor the root: it would be cut into other names. -/
theorem intercalate_ne {below : Location} (hbelow : below.IsNormal) (hne : below ≠ []) :
    String.intercalate "/" below ≠ "" ∧ String.intercalate "/" below ≠ "/" := by
  have hnames := names_intercalate hne hbelow.no_slash
  have hproper : IsName "" → False := fun h ↦ h.ne_empty rfl
  constructor
  · intro h
    rw [h, names_empty] at hnames
    exact hproper (hbelow "" (hnames ▸ List.mem_cons_self))
  · intro h
    have hroot : Path.names "/" = ["", ""] := by decide
    rw [h, hroot] at hnames
    exact hproper (hbelow "" (hnames ▸ List.mem_cons_self))

/-- What can stand after a place: a normalized relative path that leads down to something. -/
structure IsSuffix (path : String) : Prop where
  /-- It is relative. -/
  relative : isAbsolute path = false
  /-- It is lexically normalized. -/
  normalized : normalize path = path
  /-- It does not lead up. -/
  no_dotDot : ".." ∉ Path.names path
  /-- It names something. -/
  named : ∃ name ∈ Path.names path, name ≠ "" ∧ name ≠ "."

/-- **The parts of a suffix**: proper names between slashes, and perhaps a slash at the end. -/
theorem IsSuffix.exists_names (h : IsSuffix path) :
    ∃ below : Location, below.IsNormal ∧ below ≠ [] ∧
      (path = String.intercalate "/" below ∨ path = String.intercalate "/" below ++ "/") := by
  generalize hbelow : (Path.names path).foldl relativeStep [] = below
  have hproper : Location.IsNormal below := by
    intro name hmem
    rw [← hbelow] at hmem
    rcases mem_foldl_relativeStep hmem with hmem | ⟨hmem, hempty, hdot⟩
    · exact absurd hmem List.not_mem_nil
    · exact ⟨hempty, hdot, fun hup ↦ h.no_dotDot (hup ▸ hmem), no_slash_of_mem_names hmem⟩
  have hpath : path = (if below = [] then "." else String.intercalate "/" below) ++
      (if endsInSlash path then "/" else "") := by
    refine h.normalized.symm.trans ?_
    simp only [normalize, h.relative, hbelow, List.isEmpty_iff, Bool.false_eq_true, if_false]
    by_cases hnone : below = []
    · rw [if_pos hnone, if_pos hnone]
    · rw [if_neg hnone, if_neg hnone]
  have hne : below ≠ [] := by
    rintro rfl
    obtain ⟨name, hmem, hempty, hdot⟩ := h.named
    have hstay : path = "." ∨ path = "./" := by
      rw [hpath, if_pos rfl]
      split
      · exact .inr rfl
      · exact .inl String.append_empty
    rcases hstay with rfl | rfl
    · exact hdot (List.mem_singleton.1 hmem)
    · have hnames : Path.names "./" = [".", ""] := by decide
      rw [hnames, List.mem_cons, List.mem_singleton] at hmem
      exact hmem.elim hdot hempty
  refine ⟨below, hproper, hne, ?_⟩
  rw [if_neg hne] at hpath
  split at hpath
  · exact .inr hpath
  · exact .inl (hpath.trans String.append_empty)

/-- For what stands before its last name, a suffix counts as its proper names. -/
theorem IsSuffix.exists_dirname (h : IsSuffix path) :
    ∃ (init : Location) (name : String), init.IsNormal ∧ IsName name ∧ ∀ start : String,
      dirname (start ++ path) = dirname (start ++ String.intercalate "/" (init ++ [name])) := by
  obtain ⟨below, hbelow, hne, hpath⟩ := h.exists_names
  obtain ⟨init, name, rfl⟩ := Location.exists_last hne
  refine ⟨init, name, fun n hn ↦ hbelow n (List.mem_append_left _ hn), hbelow name (by simp),
    fun start ↦ ?_⟩
  rcases hpath with hpath | hpath
  · rw [hpath]
  · have hsomething : start ++ String.intercalate "/" (init ++ [name]) ≠ "" := fun hnone ↦
      (intercalate_ne hbelow hne).1 (String.append_eq_empty_iff.1 hnone).2
    rw [hpath, ← String.append_assoc, dirname_append_slash_self hsomething]

/-- Reading what stands before the last of several proper names gives the names before it. -/
theorem readWithin?_dirname {init : Location} (hinit : init.IsNormal) (hname : IsName name) :
    Location.readWithin? [] (Path.names (dirname (String.intercalate "/" (init ++ [name])))) =
      some init := by
  by_cases hne : init = []
  · subst hne
    rw [List.nil_append, String.intercalate_singleton, dirname_of_no_slash hname.no_slash]
    rfl
  · rw [String.intercalate_append_of_ne_nil hne (List.cons_ne_nil _ _),
      String.intercalate_singleton, dirname_append_slash (intercalate_ne hinit hne).1
        (intercalate_ne hinit hne).2 hname.ne_empty hname.no_slash,
      names_intercalate hne hinit.no_slash, Location.readWithin?_of_isNormal hinit,
      List.nil_append]

/-! ### Where an installation stands -/

/-- What can stand before the path of something inside an installation: nothing, or a normalized
path that names a place below the root. -/
def IsPlace (path : String) : Prop := path = "" ∨ (IsNormalized path ∧ path ≠ "/")

/-- A path that goes on from a place is the path of a location below one. -/
theorem IsPlace.exists_location (h : IsPlace path) :
    ∃ loc : Location, loc.IsNormal ∧ ∀ below : Location, below ≠ [] →
      path ++ "/" ++ String.intercalate "/" below = (loc ++ below).toPath := by
  rcases h with rfl | ⟨hnormal, hroot⟩
  · exact ⟨[], Location.IsNormal.nil, fun below _ ↦ by simp [Location.toPath]⟩
  · have hne : Location.descend [] path ≠ [] := by
      intro hnil
      rw [IsNormalized, hnil, Location.toPath_nil] at hnormal
      exact hroot hnormal.symm
    refine ⟨Location.descend [] path, Location.descend_isNormal Location.IsNormal.nil path,
      fun below hbelow ↦ ?_⟩
    rw [Location.toPath_append hne hbelow, hnormal]

end Path

end ResourceLocator
