import ResourceLocator.Proofs.Path.Names

/-!
# Locations and their paths

A location is *normal* when all of its names are proper ones. Following a path keeps locations
normal (`descend_isNormal`), and a normal location is what its own path leads to
(`descend_toPath`): between normal locations and their paths nothing is lost.

`mem_descend` is what both rest on: a name of the outcome stood in the location before, or is a
proper name of the path.
-/

namespace ResourceLocator

namespace Location

variable {loc below : Location} {name path : String}

/-- All names are proper: each leads down. -/
def IsNormal (loc : Location) : Prop := ∀ name ∈ loc, Path.IsName name

theorem IsNormal.nil : IsNormal [] := fun _ h ↦ absurd h List.not_mem_nil

theorem IsNormal.append (hloc : loc.IsNormal) (hbelow : below.IsNormal) :
    IsNormal (loc ++ below) := fun _ h ↦
  (List.mem_append.1 h).elim (hloc _) (hbelow _)

theorem IsNormal.no_slash (hloc : loc.IsNormal) : ∀ name ∈ loc, '/' ∉ name.toList :=
  fun name h ↦ (hloc name h).no_slash

theorem exists_last (hne : loc ≠ []) : ∃ (dir : Location) (name : String), loc = dir ++ [name] :=
  ⟨loc.dropLast, loc.getLast hne, (List.dropLast_concat_getLast hne).symm⟩

/-! ### One name -/

@[simp]
theorem step_empty : loc.step "" = loc := by simp [step]

@[simp]
theorem step_dot : loc.step "." = loc := by simp [step]

@[simp]
theorem step_dotDot : loc.step ".." = loc.dropLast := by simp [step]

theorem step_of_isName (h : Path.IsName name) : loc.step name = loc ++ [name] := by
  simp [step, h.ne_empty, h.ne_dot, h.ne_dotDot]

/-- A step adds nothing but the name itself, and that only if it leads down. -/
theorem mem_step {other : String} (h : name ∈ loc.step other) :
    name ∈ loc ∨ (name = other ∧ name ≠ "" ∧ name ≠ "." ∧ name ≠ "..") := by
  by_cases hstay : other = "" ∨ other = "."
  · rcases hstay with rfl | rfl
    · exact .inl (by simpa using h)
    · exact .inl (by simpa using h)
  · rw [not_or] at hstay
    by_cases hup : other = ".."
    · subst hup
      exact .inl (List.dropLast_subset _ (by simpa using h))
    · have hstep : loc.step other = loc ++ [other] := by
        simp [step, hstay.1, hstay.2, hup]
      rw [hstep, List.mem_append, List.mem_singleton] at h
      rcases h with h | rfl
      · exact .inl h
      · exact .inr ⟨rfl, hstay.1, hstay.2, hup⟩

/-! ### A path -/

theorem mem_foldl_step {names : List String} (h : name ∈ names.foldl step loc) :
    name ∈ loc ∨ (name ∈ names ∧ name ≠ "" ∧ name ≠ "." ∧ name ≠ "..") := by
  induction names generalizing loc with
  | nil => exact .inl h
  | cons other names ih =>
    rcases ih h with h | ⟨h, hproper⟩
    · rcases mem_step h with h | ⟨rfl, hproper⟩
      · exact .inl h
      · exact .inr ⟨List.mem_cons_self, hproper⟩
    · exact .inr ⟨List.mem_cons_of_mem _ h, hproper⟩

/-- **Where the names of an outcome come from**: the start, or the path. -/
theorem mem_descend (h : name ∈ loc.descend path) :
    name ∈ loc ∨ (name ∈ Path.names path ∧ Path.IsName name) := by
  rcases mem_foldl_step h with h | ⟨h, hempty, hdot, hdotDot⟩
  · split at h
    · exact absurd h List.not_mem_nil
    · exact .inl h
  · exact .inr ⟨h, hempty, hdot, hdotDot, Path.no_slash_of_mem_names h⟩

theorem descend_isNormal (hloc : loc.IsNormal) (path : String) : (loc.descend path).IsNormal :=
  fun _ h ↦ (mem_descend h).elim (hloc _) (·.2)

/-- An absolute path leads to the same place from everywhere. -/
theorem descend_of_isAbsolute (h : Path.isAbsolute path = true) (loc : Location) :
    loc.descend path = descend [] path := by
  simp [descend, h]

theorem descend_of_relative (h : Path.isAbsolute path = false) (loc : Location) :
    loc.descend path = (Path.names path).foldl step loc := by
  simp [descend, h]

/-- Proper names lead down, one after the other. -/
theorem foldl_step_of_isNormal (hbelow : below.IsNormal) (loc : Location) :
    below.foldl step loc = loc ++ below := by
  induction below generalizing loc with
  | nil => simp
  | cons name below ih =>
    have hname : Path.IsName name := hbelow name List.mem_cons_self
    have hrest : IsNormal below := fun n hn ↦ hbelow n (List.mem_cons_of_mem _ hn)
    rw [List.foldl_cons, step_of_isName hname, ih hrest, List.append_assoc,
      List.singleton_append]

/-- A single proper name leads one step down. -/
theorem descend_of_isName (h : Path.IsName name) (loc : Location) :
    loc.descend name = loc ++ [name] := by
  rw [descend_of_relative h.isAbsolute_eq_false, Path.names_of_no_slash h.no_slash,
    List.foldl_cons, List.foldl_nil, step_of_isName h]

/-! ### The path of a location -/

@[simp]
theorem toPath_nil : toPath [] = "/" := by simp [toPath]

@[simp]
theorem isAbsolute_toPath (loc : Location) : Path.isAbsolute loc.toPath = true :=
  Path.isAbsolute_slash_append _

/-- The path of a location is cut into its names, after the empty one before the first slash. -/
theorem names_toPath (hloc : loc.IsNormal) (hne : loc ≠ []) :
    Path.names loc.toPath = "" :: loc := by
  rw [toPath, Path.names_slash_append, Path.names_intercalate hne hloc.no_slash]

/-- **The path of a normal location leads to it.** -/
theorem descend_toPath (hloc : loc.IsNormal) (start : Location) :
    start.descend loc.toPath = loc := by
  rw [descend_of_isAbsolute loc.isAbsolute_toPath]
  by_cases hne : loc = []
  · subst hne; rfl
  · rw [descend, if_pos loc.isAbsolute_toPath, names_toPath hloc hne, List.foldl_cons, step_empty,
      foldl_step_of_isNormal hloc, List.nil_append]

theorem toPath_injective (hloc : loc.IsNormal) (hbelow : below.IsNormal)
    (h : loc.toPath = below.toPath) : loc = below := by
  rw [← descend_toPath hloc [], h, descend_toPath hbelow []]

/-- What stands below a location goes on from its path with a slash. -/
theorem toPath_append (hloc : loc ≠ []) (hbelow : below ≠ []) :
    toPath (loc ++ below) = loc.toPath ++ "/" ++ String.intercalate "/" below := by
  rw [toPath, toPath, String.intercalate_append_of_ne_nil hloc hbelow]
  simp [String.append_assoc]

theorem toPath_append_singleton (loc : Location) (name : String) :
    toPath (loc ++ [name]) = (if loc = [] then "" else loc.toPath) ++ "/" ++ name := by
  split
  · simp_all [toPath]
  · rename_i hloc
    rw [toPath_append hloc (List.cons_ne_nil _ _), String.intercalate_singleton]

theorem toPath_ne_root (hloc : loc.IsNormal) (hne : loc ≠ []) : loc.toPath ≠ "/" := fun h ↦
  hne (toPath_injective hloc IsNormal.nil (h.trans toPath_nil.symm))

/-- **The directory of a path is the location above it.** -/
theorem dirname_toPath (hloc : loc.IsNormal) (hname : Path.IsName name) :
    Path.dirname (toPath (loc ++ [name])) = loc.toPath := by
  rw [toPath_append_singleton]
  split
  · subst_vars
    exact Path.dirname_slash_append hname.ne_empty hname.no_slash
  · rename_i hne
    have hpath : loc.toPath ≠ "" := by simp [toPath]
    exact Path.dirname_append_slash hpath (toPath_ne_root hloc hne) hname.ne_empty
      hname.no_slash

theorem basename_toPath (loc : Location) (hname : Path.IsName name) :
    Path.basename (toPath (loc ++ [name])) = name := by
  rw [toPath_append_singleton]
  exact Path.basename_append_slash _ hname.ne_empty hname.no_slash

/-- The characters of a path are slashes and those of the names. -/
theorem mem_toList_toPath {c : Char} (h : c ∈ loc.toPath.toList) :
    c = '/' ∨ ∃ name ∈ loc, c ∈ name.toList := by
  induction loc with
  | nil => exact .inl (by simpa using h)
  | cons name loc ih =>
    by_cases hloc : loc = []
    · subst hloc
      have hmem : c = '/' ∨ c ∈ name.toList := by simpa [toPath] using h
      exact hmem.imp_right fun hc ↦ ⟨name, List.mem_cons_self, hc⟩
    · have hpath : toPath (name :: loc) = "/" ++ name ++ toPath loc := by
        rw [toPath, String.intercalate_cons_of_ne_nil hloc, toPath]
        simp [String.append_assoc]
      rw [hpath, String.toList_append, List.mem_append] at h
      rcases h with h | h
      · have hmem : c = '/' ∨ c ∈ name.toList := by simpa using h
        exact hmem.imp_right fun hc ↦ ⟨name, List.mem_cons_self, hc⟩
      · exact (ih h).imp_right fun ⟨other, hother, hc⟩ ↦
          ⟨other, List.mem_cons_of_mem _ hother, hc⟩

end Location

namespace Path

variable {cwd path : String}

/-- From an absolute path on, the working directory does not count. -/
theorem locate_of_isAbsolute (h : isAbsolute path = true) (rest : List String) :
    locate cwd (path :: rest) = rest.foldl Location.descend (Location.descend [] path) := by
  rw [locate, List.foldl_cons, Location.descend_of_isAbsolute h]

theorem locate_isNormal (cwd : String) (paths : List String) : (locate cwd paths).IsNormal := by
  have hfold : ∀ (paths : List String) (loc : Location), loc.IsNormal →
      (paths.foldl Location.descend loc).IsNormal := by
    intro paths
    induction paths with
    | nil => exact fun _ h ↦ h
    | cons p paths ih => exact fun loc h ↦ ih _ (Location.descend_isNormal h p)
  exact hfold paths _ (Location.descend_isNormal Location.IsNormal.nil cwd)

theorem locate_append (cwd : String) (paths : List String) (last : String) :
    locate cwd (paths ++ [last]) = (locate cwd paths).descend last := by
  rw [locate, List.foldl_append]
  rfl

theorem locate_toPath {loc : Location} (hloc : loc.IsNormal) (cwd : String) :
    locate cwd [loc.toPath] = loc := by
  rw [locate_of_isAbsolute loc.isAbsolute_toPath, List.foldl_nil, Location.descend_toPath hloc]

/-- An absolute path that is lexically normalized: the location that it leads to has it as its
path. -/
def IsNormalized (path : String) : Prop := (Location.descend [] path).toPath = path

instance (path : String) : Decidable (IsNormalized path) :=
  inferInstanceAs (Decidable (_ = _))

theorem IsNormalized.isAbsolute (h : IsNormalized path) : isAbsolute path = true := by
  rw [← h]
  exact Location.isAbsolute_toPath _

/-- **Normalized paths are those that resolving leaves as they are.** -/
theorem resolve_eq_self_iff : resolve cwd [path] = path ↔ IsNormalized path := by
  have hlocate : isAbsolute path = true → resolve cwd [path] = (Location.descend [] path).toPath :=
    fun h ↦ by rw [resolve, locate_of_isAbsolute h, List.foldl_nil]
  constructor
  · intro h
    have habsolute : isAbsolute path = true := by
      rw [← h]
      exact Location.isAbsolute_toPath _
    exact (hlocate habsolute).symm.trans h
  · intro h
    exact (hlocate h.isAbsolute).trans h

theorem isNormalized_resolve (cwd : String) (paths : List String) :
    IsNormalized (resolve cwd paths) := by
  rw [IsNormalized, resolve, Location.descend_toPath (locate_isNormal cwd paths)]

/-- A normalized path is resolved to itself, whatever comes before it. -/
theorem IsNormalized.resolve_eq (h : IsNormalized path) (cwd before : String) :
    resolve cwd [before, path] = path := by
  rw [resolve, locate, List.foldl_cons, List.foldl_cons, List.foldl_nil,
    Location.descend_of_isAbsolute h.isAbsolute]
  exact h

theorem IsNormalized.ne_empty (h : IsNormalized path) : path ≠ "" := by
  rintro rfl
  exact absurd h.isAbsolute (by decide)

end Path

end ResourceLocator
