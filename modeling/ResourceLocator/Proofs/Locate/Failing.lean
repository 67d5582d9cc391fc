import ResourceLocator.Proofs.Locate.Lookup
import ResourceLocator.Proofs.Locate.Shadowing

/-!
# What a scan of a disk comes to

A question about a path may have no answer (`Unanswered`), and then the scan that asks it fails. So
what a scan comes to depends on which questions it asks.

A lookup asks in one directory after another for the file of its name. It ends where the name is
refused or its question has no answer, if all directories before are passed over (`FindFails`), and
it comes to nothing if all directories are (`FindsNothing`). A listing asks for the entries of
every directory, and for the file of every entry of the extension that no directory before shows; it
fails if any of these questions has no answer (`ListFails`). If one has none in a directory before,
the listing fails anyway, so that of those before it matters only what they show.
-/

namespace ResourceLocator.Resource

open FileSystem

variable {fs : FileSystem} {cwd name dir : String} {dirs : List String} {extension : Option String}
  {isFile : String → Except Failure Bool}

/-! ### Lookups -/

section Lookup

variable (cwd name : String) (isFile : String → Except Failure Bool)

/-- A lookup passes over a directory: the name stays inside, and the file that is asked for is not
there. -/
def Passes (dir : String) : Prop :=
  isInside cwd dir name = true ∧ isFile (Path.join [dir, name]) = .ok false

/-- A lookup cannot go on in a directory: the name is refused, or the file cannot be asked for. -/
def IsStuck (dir : String) : Prop :=
  isInside cwd dir name = false ∨ ∃ failure, isFile (Path.join [dir, name]) = .error failure

end Lookup

theorem find_cons_of_passes (h : Passes cwd name isFile dir) :
    find cwd isFile name (dir :: dirs) = find cwd isFile name dirs := by
  rw [find, h.1]
  simp only [Bool.not_true, Bool.false_eq_true, if_false, h.2]
  rfl

theorem exists_find_cons_of_isStuck (h : IsStuck cwd name isFile dir) (dirs : List String) :
    ∃ failure, find cwd isFile name (dir :: dirs) = .error failure := by
  rw [find]
  cases hinside : isInside cwd dir name with
  | false => exact ⟨_, rfl⟩
  | true =>
    obtain ⟨failure, hfile⟩ := h.resolve_left (by simp [hinside])
    simp only [Bool.not_true, Bool.false_eq_true, if_false, hfile]
    exact ⟨failure, rfl⟩

/-- **One directory of a lookup** has the file, or it is passed over, or the lookup cannot go on. -/
theorem find_cons_cases (cwd name dir : String) (isFile : String → Except Failure Bool)
    (dirs : List String) :
    (find cwd isFile name (dir :: dirs) = .ok (some (ofName name dir)) ∧
      ¬Passes cwd name isFile dir) ∨
    Passes cwd name isFile dir ∨
    (IsStuck cwd name isFile dir ∧ ¬Passes cwd name isFile dir) := by
  simp only [Passes, IsStuck]
  cases hinside : isInside cwd dir name with
  | false => exact .inr (.inr (by simp))
  | true =>
    cases hfile : isFile (Path.join [dir, name]) with
    | error failure => exact .inr (.inr (by simp))
    | ok answer =>
      cases answer with
      | true => exact .inl ⟨find_cons_of_isFile hinside hfile, by simp⟩
      | false => exact .inr (.inl (by simp))

/-- **A lookup comes to nothing** if all directories are passed over. -/
theorem find_eq_none_iff :
    find cwd isFile name dirs = .ok none ↔ ∀ dir ∈ dirs, Passes cwd name isFile dir := by
  induction dirs with
  | nil => exact ⟨fun _ _ hdir ↦ absurd hdir List.not_mem_nil, fun _ ↦ rfl⟩
  | cons dir rest ih =>
    rw [List.forall_mem_cons]
    rcases find_cons_cases cwd name dir isFile rest with
      ⟨hfound, hpasses⟩ | hpasses | ⟨hstuck, hpasses⟩
    · simp [hfound, hpasses]
    · rw [find_cons_of_passes hpasses, ih, and_iff_right hpasses]
    · obtain ⟨failure, hfails⟩ := exists_find_cons_of_isStuck hstuck rest
      simp [hfails, hpasses]

/-- **A lookup fails** in the first directory that is not passed over. -/
theorem exists_find_eq_error_iff : (∃ failure, find cwd isFile name dirs = .error failure) ↔
    ∃ passed dir rest, dirs = passed ++ dir :: rest ∧
      (∀ other ∈ passed, Passes cwd name isFile other) ∧ IsStuck cwd name isFile dir := by
  constructor
  · rintro ⟨failure, h⟩
    induction dirs with
    | nil => cases h
    | cons dir rest ih =>
      rcases find_cons_cases cwd name dir isFile rest with ⟨hfound, -⟩ | hpasses | ⟨hstuck, -⟩
      · cases hfound.symm.trans h
      · obtain ⟨passed, last, rest, rfl, hpassed, hstuck⟩ :=
          ih ((find_cons_of_passes hpasses).symm.trans h)
        exact ⟨dir :: passed, last, rest, rfl, List.forall_mem_cons.2 ⟨hpasses, hpassed⟩, hstuck⟩
      · exact ⟨[], dir, rest, rfl, fun _ hdir ↦ absurd hdir List.not_mem_nil, hstuck⟩
  · rintro ⟨passed, dir, rest, rfl, hpassed, hstuck⟩
    induction passed with
    | nil => exact exists_find_cons_of_isStuck hstuck rest
    | cons other passed ih =>
      obtain ⟨hpasses, hpassed⟩ := List.forall_mem_cons.1 hpassed
      rw [List.cons_append, find_cons_of_passes hpasses]
      exact ih hpassed

/-! ### Lookups on a disk -/

/-- A lookup on a disk passes over a directory: the name is a relative path that stays inside, there
is an answer about the file, and it is not there. -/
structure IsPassedOver (fs : FileSystem) (cwd name dir : String) : Prop where
  /-- The name is not empty. -/
  nonempty : name ≠ ""
  /-- The name is a relative path. -/
  relative : Path.isAbsolute name = false
  /-- The name does not lead out of the directory. -/
  inside : Path.components (Path.resolve cwd [dir]) <+:
    Path.components (Path.resolve cwd [Path.join [dir, name]])
  /-- The question about the file has an answer. -/
  answered : ¬Unanswered (Path.join [dir, name]) (fs.stat cwd (Path.join [dir, name]))
  /-- There is no file. -/
  no_file : ∀ text locked, fs.stat cwd (Path.join [dir, name]) ≠ .ok (.file text locked)

theorem passes_iff :
    Passes cwd name (fs.probe cwd).isFile dir ↔ IsPassedOver fs cwd name dir := by
  rw [Passes, isInside_iff, isFile_eq_false_iff]
  exact ⟨fun ⟨⟨hne, hrelative, hinside⟩, hanswered, hfile⟩ ↦
      ⟨hne, hrelative, hinside, hanswered, hfile⟩,
    fun h ↦ ⟨⟨h.nonempty, h.relative, h.inside⟩, h.answered, h.no_file⟩⟩

/-- No directory has a file of a name. -/
def FindsNothing (fs : FileSystem) (cwd name : String) (dirs : List String) : Prop :=
  ∀ dir ∈ dirs, IsPassedOver fs cwd name dir

/-- A lookup on a disk fails: behind directories that are passed over there is one in which the name
is refused, being empty or absolute or leading out of it, or the question about the file has no
answer. -/
def FindFails (fs : FileSystem) (cwd name : String) (dirs : List String) : Prop :=
  ∃ passed dir rest, dirs = passed ++ dir :: rest ∧ FindsNothing fs cwd name passed ∧
    (name = "" ∨ Path.isAbsolute name = true ∨
      ¬ Path.components (Path.resolve cwd [dir]) <+:
        Path.components (Path.resolve cwd [Path.join [dir, name]]) ∨
      Unanswered (Path.join [dir, name]) (fs.stat cwd (Path.join [dir, name])))

theorem find_eq_none_iff_findsNothing :
    find cwd (fs.probe cwd).isFile name dirs = .ok none ↔ FindsNothing fs cwd name dirs := by
  simp only [find_eq_none_iff, passes_iff, FindsNothing]

theorem exists_find_eq_error_iff_findFails :
    (∃ failure, find cwd (fs.probe cwd).isFile name dirs = .error failure) ↔
      FindFails fs cwd name dirs := by
  simp only [exists_find_eq_error_iff, passes_iff, IsStuck, isInside_eq_false_iff,
    exists_isFile_eq_error_iff, FindFails, FindsNothing, or_assoc]

/-! ### Listings on a disk -/

/-- A directory on a disk has a name among its entries. -/
def HasEntry (fs : FileSystem) (cwd name dir : String) : Prop :=
  '\x00' ∉ dir.toList ∧ ∃ names, fs.list cwd dir = .ok names ∧ name ∈ names

/-- A directory on a disk shows a name: it is among the entries, and the file is there. -/
def IsShown (fs : FileSystem) (cwd name dir : String) : Prop :=
  HasEntry fs cwd name dir ∧ '\x00' ∉ (Path.join [dir, name]).toList ∧
    ∃ text locked, fs.stat cwd (Path.join [dir, name]) = .ok (.file text locked)

/-- A listing on a disk fails: the question for the entries of a directory has no answer, or that
for the file of an entry has none, whose name has the extension and is not shown by a directory
before. -/
def ListFails (fs : FileSystem) (cwd : String) (extension : Option String) (dirs : List String) :
    Prop :=
  ∃ before dir rest, dirs = before ++ dir :: rest ∧
    (Unanswered dir (fs.list cwd dir) ∨
      ∃ name, HasEntry fs cwd name dir ∧ hasExtension (wantedExtension? extension) name = true ∧
        (∀ other ∈ before, ¬IsShown fs cwd name other) ∧
        Unanswered (Path.join [dir, name]) (fs.stat cwd (Path.join [dir, name])))

theorem exists_mem_entries_iff : (∃ names, (fs.probe cwd).entries dir = .ok names ∧ name ∈ names) ↔
    HasEntry fs cwd name dir := by
  simp only [probe_entries_eq_answerOf, answerOf_eq_ok_iff, HasEntry]
  constructor
  · rintro ⟨names, ⟨hnul, ⟨found, hlist, rfl⟩ | ⟨-, -, -, rfl⟩⟩, hmem⟩
    · exact ⟨hnul, found, hlist, hmem⟩
    · exact absurd hmem List.not_mem_nil
  · rintro ⟨hnul, names, hlist, hmem⟩
    exact ⟨names, ⟨hnul, .inl ⟨names, hlist, rfl⟩⟩, hmem⟩

theorem shows_iff_isShown : shows (fs.probe cwd).entries (fs.probe cwd).isFile name dir = true ↔
    IsShown fs cwd name dir := by
  rw [shows_iff, IsShown, ← exists_mem_entries_iff, ← isFile_eq_true_iff]
  exact ⟨fun ⟨names, hnames, hmem, hfile⟩ ↦ ⟨⟨names, hnames, hmem⟩, hfile⟩,
    fun ⟨⟨names, hnames, hmem⟩, hfile⟩ ↦ ⟨names, hnames, hmem, hfile⟩⟩

/-- A question that is asked about a directory has no answer. -/
theorem not_isAnsweredAfter_iff {wanted : Option String} {before : List String} :
    ¬IsAnsweredAfter (fs.probe cwd).entries (fs.probe cwd).isFile wanted [] before dir ↔
      Unanswered dir (fs.list cwd dir) ∨
        ∃ name, HasEntry fs cwd name dir ∧ hasExtension wanted name = true ∧
          (∀ other ∈ before, ¬IsShown fs cwd name other) ∧
          Unanswered (Path.join [dir, name]) (fs.stat cwd (Path.join [dir, name])) := by
  have hentries : (∃ failure, (fs.probe cwd).entries dir = .error failure) ↔
      Unanswered dir (fs.list cwd dir) := by
    rw [probe_entries_eq_answerOf, exists_answerOf_eq_error_iff]
  simp only [IsAnsweredAfter, ← hentries, ← exists_mem_entries_iff, ← shows_iff_isShown,
    ← exists_isFile_eq_error_iff, exists_eq_error_iff]
  cases hnames : (fs.probe cwd).entries dir with
  | error failure => simp
  | ok names => simp

theorem exists_list_eq_error_iff_listFails :
    (∃ failure, list (fs.probe cwd).entries (fs.probe cwd).isFile extension dirs =
      .error failure) ↔ ListFails fs cwd extension dirs := by
  simp only [list, ListFails, ← not_isAnsweredAfter_iff, exists_eq_error_iff,
    exists_listFrom_eq_ok_iff, not_forall, exists_prop]

end ResourceLocator.Resource
