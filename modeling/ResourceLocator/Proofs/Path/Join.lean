import ResourceLocator.Proofs.Path.Inside

/-!
# A name joined to a directory

The *clean names* of a path are what is left of its names when lexical reading is done with them:
no empty names and no `.`, and `..` only at the start of a relative path. A proper name that is
joined to a directory comes after the clean names of the directory (`join_eq`), whatever the
spelling of the directory. Nor does it matter for whether the joined path is absolute: that is so if
the directory is (`isAbsolute_join`).
-/

namespace ResourceLocator.Path

variable {path name : String} {names' : List String}

/-- The names of a path that lexical reading leaves. -/
def cleanNames (path : String) : List String :=
  if isAbsolute path then (names path).foldl Location.step []
  else (names path).foldl relativeStep []

theorem cleanNames_of_isAbsolute (h : isAbsolute path = true) :
    cleanNames path = (names path).foldl Location.step [] := if_pos h

theorem cleanNames_of_relative (h : isAbsolute path = false) :
    cleanNames path = (names path).foldl relativeStep [] := if_neg (by simp [h])

theorem relativeStep_of_isName (h : IsName name) (done : List String) :
    relativeStep done name = done ++ [name] := by
  simp [relativeStep, h.ne_empty, h.ne_dot, h.ne_dotDot]

/-- A clean name is one name of the path, and does not stay where it is. -/
theorem mem_cleanNames (h : name ∈ cleanNames path) :
    name ∈ names path ∧ name ≠ "" ∧ name ≠ "." := by
  unfold cleanNames at h
  split at h
  · rcases Location.mem_foldl_step h with h | ⟨h, hempty, hdot, -⟩
    · exact absurd h List.not_mem_nil
    · exact ⟨h, hempty, hdot⟩
  · rcases mem_foldl_relativeStep h with h | h
    · exact absurd h List.not_mem_nil
    · exact h

theorem no_slash_of_mem_cleanNames (h : name ∈ cleanNames path) : '/' ∉ name.toList :=
  no_slash_of_mem_names (mem_cleanNames h).1

/-! ### Taking nothing back -/

/-- Lexical reading takes nothing back of a path: all it leaves out are the names that stay where
they are. -/
structure TakesNothingBack (path : String) : Prop where
  /-- The path has names. -/
  ne_empty : path ≠ ""
  /-- Those that do not stay are left. -/
  cleanNames_eq : cleanNames path = (names path).filter fun name ↦ name ≠ "" && name ≠ "."

/-- Without `..`, reading goes down with every name that does not stay. -/
theorem foldl_eq_append_filter {read : List String → String → List String}
    (hread : ∀ done name, name ≠ ".." →
      read done name = if name ≠ "" && name ≠ "." then done ++ [name] else done)
    {names' : List String} (h : ".." ∉ names') (done : List String) :
    names'.foldl read done = done ++ names'.filter fun name ↦ name ≠ "" && name ≠ "." := by
  induction names' generalizing done with
  | nil => simp
  | cons name names' ih =>
    rw [List.mem_cons, not_or] at h
    rw [List.foldl_cons, hread done name (Ne.symm h.1), ih h.2, List.filter_cons]
    split <;> simp

/-- **A path without `..` has nothing to take back.** -/
theorem takesNothingBack_of_no_dotDot (hne : path ≠ "") (h : ".." ∉ names path) :
    TakesNothingBack path where
  ne_empty := hne
  cleanNames_eq := by
    unfold cleanNames
    split
    · refine foldl_eq_append_filter (fun done name hname ↦ ?_) h []
      by_cases hempty : name = "" <;> by_cases hdot : name = "." <;>
        simp [Location.step, hempty, hdot, hname]
    · refine foldl_eq_append_filter (fun done name hname ↦ ?_) h []
      by_cases hempty : name = "" <;> by_cases hdot : name = "." <;>
        simp [relativeStep, hempty, hdot, hname]

/-- **What has been resolved has nothing to take back.** -/
theorem takesNothingBack_resolve (cwd : String) (paths : List String) :
    TakesNothingBack (resolve cwd paths) := by
  have hloc := locate_isNormal cwd paths
  refine takesNothingBack_of_no_dotDot (fun hempty ↦ ?_) fun hdotDot ↦ ?_
  · have habsolute := Location.isAbsolute_toPath (locate cwd paths)
    rw [show (locate cwd paths).toPath = "" from hempty] at habsolute
    cases habsolute
  · by_cases hroot : locate cwd paths = []
    · rw [resolve, hroot] at hdotDot
      exact absurd hdotDot (by decide)
    · rw [resolve, Location.toPath, names_slash_append, names_intercalate hroot hloc.no_slash,
        List.mem_cons] at hdotDot
      rcases hdotDot with hdotDot | hdotDot
      · exact absurd hdotDot (by decide)
      · exact (hloc _ hdotDot).ne_dotDot rfl

/-! ### Joining -/

theorem isAbsolute_append_slash (hpath : path ≠ "") (rest : String) :
    isAbsolute (path ++ rest) = isAbsolute path := by
  obtain ⟨c, cs, hcs⟩ := List.exists_cons_of_ne_nil (by simpa using hpath : path.toList ≠ [])
  simp [isAbsolute, hcs]

theorem endsInSlash_append_name (hname : IsName name) (front : String) :
    endsInSlash (front ++ name) = false := by
  have hne : name.toList ≠ [] := by simpa using hname.ne_empty
  obtain ⟨c, hc⟩ := Option.isSome_iff_exists.1 (List.getLast?_isSome.2 hne)
  have hslash : c ≠ '/' := fun h ↦ hname.no_slash (h ▸ List.mem_of_getLast? hc)
  simpa [endsInSlash, hc] using hslash

/-- **A proper name joined to a directory** comes after the clean names of the directory. -/
theorem join_eq (hname : IsName name) (dir : String) :
    join [dir, name] = if isAbsolute dir then Location.toPath (cleanNames dir ++ [name])
      else String.intercalate "/" (cleanNames dir ++ [name]) := by
  by_cases hdir : dir = ""
  · subst hdir
    have hjoin : join ["", name] = normalize name := by
      simp [join, hname.ne_empty, String.intercalate_singleton]
    have hslash := endsInSlash_append_name hname ""
    rw [String.empty_append] at hslash
    have habsolute : isAbsolute "" = false := rfl
    have hclean : cleanNames "" = [] := rfl
    rw [hjoin, normalize, hslash, hname.isAbsolute_eq_false, names_of_no_slash hname.no_slash,
      habsolute, hclean]
    simp [relativeStep_of_isName hname, String.intercalate_singleton]
  · have hjoin : join [dir, name] = normalize (dir ++ "/" ++ name) := by
      simp [join, hdir, hname.ne_empty, String.intercalate_cons_of_ne_nil,
        String.intercalate_singleton,
        String.append_assoc]
    have hslash : endsInSlash (dir ++ "/" ++ name) = false := endsInSlash_append_name hname _
    have habsolute : isAbsolute (dir ++ "/" ++ name) = isAbsolute dir := by
      rw [String.append_assoc, isAbsolute_append_slash hdir]
    have hnames : names (dir ++ "/" ++ name) = names dir ++ [name] := by
      rw [names_append_slash, names_of_no_slash hname.no_slash]
    rw [hjoin, normalize, hslash, habsolute, hnames, List.foldl_append, List.foldl_append]
    cases habs : isAbsolute dir with
    | true =>
      rw [cleanNames_of_isAbsolute habs]
      simp [Location.step_of_isName hname]
    | false =>
      rw [cleanNames_of_relative habs]
      simp [relativeStep_of_isName hname]

/-- What texts between slashes make is absolute if and only if the first one is. -/
theorem isAbsolute_intercalate_append {first : String} (hne : first ≠ "") (rest : List String)
    (tail : String) :
    isAbsolute (String.intercalate "/" (first :: rest) ++ tail) = isAbsolute first := by
  cases rest with
  | nil => rw [String.intercalate_singleton, isAbsolute_append_slash hne]
  | cons second rest =>
    rw [String.intercalate_cons_of_ne_nil (List.cons_ne_nil second rest), String.append_assoc,
      String.append_assoc, isAbsolute_append_slash hne]

/-- **Normalizing leaves a path absolute or relative.** -/
theorem isAbsolute_normalize (path : String) : isAbsolute (normalize path) = isAbsolute path := by
  cases habsolute : isAbsolute path with
  | true =>
    rw [normalize, habsolute]
    simp only [if_true]
    split
    · rfl
    · rw [isAbsolute_append_slash (by simp [Location.toPath]), Location.isAbsolute_toPath]
  | false =>
    rw [normalize, habsolute]
    simp only [Bool.false_eq_true, if_false]
    cases hdone : (names path).foldl relativeStep [] with
    | nil => exact isAbsolute_append_slash (by decide) _
    | cons first rest =>
      -- The first name that is left is one of the path, and has no slash.
      rcases mem_foldl_relativeStep (hdone ▸ List.mem_cons_self) with h | ⟨hmem, hne, -⟩
      · exact absurd h List.not_mem_nil
      · exact (isAbsolute_intercalate_append hne rest _).trans
          (isAbsolute_of_no_slash (no_slash_of_mem_names hmem))

/-- **A name joined to a directory** is an absolute path if the directory is one; if there is no
directory, it is what the name is. -/
theorem isAbsolute_join_pair (dir name : String) :
    isAbsolute (join [dir, name]) = if dir = "" then isAbsolute name else isAbsolute dir := by
  rw [join, isAbsolute_normalize]
  by_cases hdir : dir = "" <;> by_cases hname : name = ""
  · subst hdir hname
    rfl
  · simp [hdir, hname, String.intercalate_singleton]
  · simp [hdir, hname, String.intercalate_singleton]
  · have hparts : [dir, name].filter (· ≠ "") = [dir, name] := by simp [hdir, hname]
    rw [hparts, if_neg hdir, ← String.append_empty (s := String.intercalate "/" [dir, name]),
      isAbsolute_intercalate_append hdir]

/-- The clean names of a directory and a proper name are not empty and have no slash. -/
theorem forall_mem_cleanNames_append (hname : IsName name) (dir : String) :
    ∀ other ∈ cleanNames dir ++ [name], '/' ∉ other.toList ∧ other ≠ "" := by
  intro other hother
  rcases List.mem_append.1 hother with hother | hother
  · exact ⟨no_slash_of_mem_cleanNames hother, (mem_cleanNames hother).2.1⟩
  · obtain rfl := List.mem_singleton.1 hother
    exact ⟨hname.no_slash, hname.ne_empty⟩

/-- A relative name joined to a directory is an absolute path if and only if the directory is. -/
theorem isAbsolute_join (hname : isAbsolute name = false) (dir : String) :
    isAbsolute (join [dir, name]) = isAbsolute dir := by
  rw [isAbsolute_join_pair]
  split
  · next h => rw [h, hname]; rfl
  · rfl

/-- The joined path ends in the name. -/
theorem exists_join_eq_append (hname : IsName name) (dir : String) :
    ∃ front, join [dir, name] = front ++ name := by
  rw [join_eq hname]
  split
  · exact ⟨_, Location.toPath_append_singleton _ _⟩
  · by_cases hclean : cleanNames dir = []
    · exact ⟨"", by rw [hclean, List.nil_append, String.intercalate_singleton, String.empty_append]⟩
    · rw [String.intercalate_append_of_ne_nil hclean (List.cons_ne_nil _ _),
        String.intercalate_singleton]
      exact ⟨_, rfl⟩

end ResourceLocator.Path
