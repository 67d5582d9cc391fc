import ResourceLocator.Proofs.Except
import ResourceLocator.Proofs.FileSystem.SameWays
import ResourceLocator.Proofs.Path.Join
import ResourceLocator.Proofs.Text.Units

/-!
# Spellings of a directory

A walk takes the names of a path as they are written, and lexical reading takes some of them back.
The two may part: a `..` after a link leads up from where the link leads, and after a name that is
not there it leads nowhere.

A name that is joined to a directory is looked up along the clean spelling of the directory, and the
entries of a directory are those along its own spelling. So the two questions have one answer if the
directory leads where its clean spelling does (`mem_entries_of_isFile_join`). That is so for every
path of which lexical reading takes nothing back (`leadsAsWritten_of_takesNothingBack`).
-/

namespace ResourceLocator.FileSystem

variable {fs : FileSystem} {cwd dir name : String}

/-! ### Walks in two parts -/

/-- **A walk along two lists of names** goes along the second from where the first leads. -/
theorem walkOn_append (links : Nat) (here : Location) (names more : List String) :
    fs.walkOn .followLink links here (names ++ more) =
      (fs.walkOn .followLink links here names).bind fun reached ↦
        fs.walkOn .followLink reached.2 reached.1 more := by
  fun_induction walkOn fs .followLink links here names with
  | case1 => rfl
  | case3 links here names _ hhere hlocked ih =>
    rw [Bool.of_not_eq_true hlocked] at hhere
    rw [List.cons_append, walkOn_dot hhere, ih]
  | case4 links here names _ hhere hlocked _ ih =>
    rw [Bool.of_not_eq_true hlocked] at hhere
    rw [List.cons_append, walkOn_dotDot hhere, ih]
  | case10 here name names _ hhere hlocked hdot hdotDot hshort next target hnext _ links ih =>
    rw [Bool.of_not_eq_true hlocked] at hhere
    rw [List.cons_append, walkOn_link hhere hdot hdotDot (Bool.of_not_eq_true hshort) hnext,
      ← List.append_assoc]
    exact ih
  | case11 links here name names _ hhere hlocked hdot hdotDot hshort next node hlink hnext ih =>
    rw [Bool.of_not_eq_true hlocked] at hhere
    rw [List.cons_append, walkOn_node hhere hdot hdotDot (Bool.of_not_eq_true hshort) hnext hlink,
      ih]
  | case6 _ _ _ _ _ _ _ _ _ _ _ _ hnew => exact absurd hnew.2 (by decide)
  | case8 _ _ _ _ _ _ _ _ _ _ _ _ _ hkeep => exact absurd hkeep.2 (by decide)
  | case7 links here name names _ hhere hlocked hdot hdotDot hshort next hnext =>
    rw [Bool.of_not_eq_true hlocked] at hhere
    rw [List.cons_append,
      walkOn_missing hhere hdot hdotDot (Bool.of_not_eq_true hshort) hnext]
    rfl
  | case9 here name names _ hhere _ _ _ _ next target hnext =>
    have hnext : fs.node? (here ++ [name]) = some (.link target) := hnext
    rw [List.cons_append, walkOn]
    simp [*, Except.bind]
  | case2 | case5 | case12 =>
    rw [List.cons_append, walkOn]
    simp [*, Except.bind]

/-- A walk on from a place needs a directory there that is not locked. -/
theorem eq_directory_of_walkOn {links : Nat} {here : Location} {names : List String}
    {reached : Location × Nat}
    (h : fs.walkOn .followLink links here (name :: names) = .ok reached) :
    fs.node? here = some (.directory false) := by
  rw [walkOn] at h
  split at h
  · next locked hhere =>
    cases locked with
    | true => cases h
    | false => exact hhere
  · cases h

/-- What a walk takes a proper name to stands in the directory under that name. -/
theorem exists_node_of_walkOn_singleton {links : Nat} {here : Location}
    {reached : Location × Nat} (hname : Path.IsName name)
    (h : fs.walkOn .followLink links here [name] = .ok reached) :
    ∃ node, fs.node? (here ++ [name]) = some node := by
  have hhere := eq_directory_of_walkOn h
  cases hnext : fs.node? (here ++ [name]) with
  | some node => exact ⟨node, rfl⟩
  | none =>
    cases hshort : nameIsTooLong name with
    | true =>
      rw [walkOn, hhere] at h
      simp [hname.ne_dot, hname.ne_dotDot, hshort] at h
    | false =>
      rw [walkOn_missing hhere hname.ne_dot hname.ne_dotDot hshort hnext] at h
      cases h

/-- **A name stands in a directory** if something stands at its place. -/
theorem mem_childNames {loc : Location} {node : Node} (h : fs.node? (loc ++ [name]) = some node) :
    name ∈ fs.childNames loc := by
  rw [childNames, Text.mem_sortNames_iff, List.mem_filterMap]
  unfold node? at h
  split at h
  · next entry found hfind =>
    have hloc : entry = loc ++ [name] := by simpa using List.find?_some hfind
    exact ⟨_, List.mem_of_find?_eq_some hfind, by simp [hloc]⟩
  · simp at h

theorem exists_node_of_mem_childNames {loc : Location} (h : name ∈ fs.childNames loc) :
    ∃ node, fs.node? (loc ++ [name]) = some node := by
  rw [childNames, Text.mem_sortNames_iff, List.mem_filterMap] at h
  obtain ⟨⟨place, node⟩, hentry, hname⟩ := h
  split at hname
  · next hparent =>
    obtain rfl : place = loc ++ [name] := by
      obtain ⟨init, rfl⟩ := List.getLast?_eq_some_iff.1 hname
      rw [← hparent, List.dropLast_concat]
    have hfind : (fs.nodes.find? (·.1 == loc ++ [name])).isSome := by
      rw [List.find?_isSome]
      exact ⟨_, hentry, by simp⟩
    obtain ⟨entry, hentry⟩ := Option.isSome_iff_exists.1 hfind
    exact ⟨entry.2, by rw [node?, hentry]⟩
  · cases hname

/-! ### Clean spellings -/

/-- **A directory leads where its clean spelling does**: if that leads to a directory in which names
can be looked up, so does the directory as it is written, and to the same place, or else walking
along it fails for a reason other than that nothing is there. -/
def LeadsAsWritten (fs : FileSystem) (cwd dir : String) : Prop :=
  ∀ loc left, fs.walkOn .followLink maxLinks (startOf cwd dir) (Path.cleanNames dir) =
      .ok (loc, left) → fs.node? loc = some (.directory false) →
    fs.walk cwd .followLink dir = .ok loc ∨
      ∃ errno, fs.walk cwd .followLink dir = .error errno ∧ errno.isAbsence = false

theorem walkNames_join (hname : Path.IsName name) (dir : String) :
    walkNames (Path.join [dir, name]) = Path.cleanNames dir ++ [name] := by
  have hclean := Path.forall_mem_cleanNames_append hname dir
  have hnames : Path.names (String.intercalate "/" (Path.cleanNames dir ++ [name])) =
      Path.cleanNames dir ++ [name] :=
    Path.names_intercalate (by simp) fun other hother ↦ (hclean other hother).1
  have hfilter : (Path.cleanNames dir ++ [name]).filter (· ≠ "") = Path.cleanNames dir ++ [name] :=
    List.filter_eq_self.2 fun other hother ↦ by simpa using (hclean other hother).2
  rw [walkNames, Path.join_eq hname]
  split
  · rw [Location.toPath, Path.names_slash_append, hnames, List.filter_cons_of_neg (by simp),
      hfilter]
  · rw [hnames, hfilter]

theorem startOf_join (hname : Path.IsName name) (cwd dir : String) :
    startOf cwd (Path.join [dir, name]) = startOf cwd dir := by
  rw [startOf, startOf, Path.isAbsolute_join hname.isAbsolute_eq_false]

/-- **What a name joined to a directory leads to** stands in the directory that the clean spelling
leads to. -/
theorem exists_clean_of_stat_join {node : Node} (hname : Path.IsName name)
    (h : fs.stat cwd (Path.join [dir, name]) = .ok node) :
    ∃ loc left, fs.walkOn .followLink maxLinks (startOf cwd dir) (Path.cleanNames dir) =
        .ok (loc, left) ∧ fs.node? loc = some (.directory false) ∧ name ∈ fs.childNames loc := by
  obtain ⟨reached, hwalk, -⟩ := stat_eq_ok_iff.1 h
  obtain ⟨-, -, rest, hrun⟩ := exists_walkOn_of_walk hwalk
  rw [walkNames_join hname, startOf_join hname, walkOn_append] at hrun
  obtain ⟨⟨loc, left⟩, hclean, hlast⟩ := bind_eq_ok_iff.1 hrun
  obtain ⟨next, hnext⟩ := exists_node_of_walkOn_singleton hname hlast
  exact ⟨loc, left, hclean, eq_directory_of_walkOn hlast, mem_childNames hnext⟩

/-- **A file whose name is joined to a directory is listed there**, if the directory leads where its
clean spelling does and can be listed. -/
theorem mem_entries_of_isFile_join {names : List String} (hname : Path.IsName name)
    (hdir : fs.LeadsAsWritten cwd dir)
    (hfile : (fs.probe cwd).isFile (Path.join [dir, name]) = .ok true)
    (hentries : (fs.probe cwd).entries dir = .ok names) : name ∈ names := by
  obtain ⟨text, locked, hstat⟩ := exists_stat_of_isFile hfile
  obtain ⟨loc, left, hclean, hloc, hmem⟩ := exists_clean_of_stat_join hname hstat
  rcases hdir loc left hclean hloc with hwalk | ⟨errno, hwalk, hpresent⟩
  · have hlist : fs.list cwd dir = .ok (fs.childNames loc) := by
      rw [list, hwalk]
      simp only [asCall, bind, Except.bind, hloc]
      rfl
    rcases list_of_entries hentries with hnames | ⟨fault, hfault, -⟩
    · obtain rfl := Except.ok.inj (hlist.symm.trans hnames)
      exact hmem
    · cases hlist.symm.trans hfault
  · have hlist : fs.list cwd dir = .error ⟨errno, "scandir", some dir⟩ := by
      rw [list, hwalk]
      rfl
    rcases list_of_entries hentries with hnames | ⟨fault, hfault, habsence⟩
    · cases hlist.symm.trans hnames
    · obtain rfl := Except.error.inj (hlist.symm.trans hfault)
      cases hpresent.symm.trans habsence

/-! ### Spellings that take nothing back -/

/-- Names that stay do not matter to a walk that ends in a directory. -/
theorem walkOn_of_filter {links left : Nat} {here loc : Location} {names : List String}
    (h : fs.walkOn .followLink links here (names.filter (· ≠ ".")) = .ok (loc, left))
    (hloc : fs.node? loc = some (.directory false)) :
    fs.walkOn .followLink links here names = .ok (loc, left) := by
  induction names generalizing links here with
  | nil => exact h
  | cons name names ih =>
    by_cases hdot : name = "."
    · subst hdot
      rw [List.filter_cons_of_neg (by simp)] at h
      -- Whatever comes next asks for a directory, and so does the end of the walk.
      have hhere : fs.node? here = some (.directory false) := by
        cases hrest : names.filter (· ≠ ".") with
        | nil =>
          rw [hrest, walkOn] at h
          obtain ⟨rfl, -⟩ := Prod.mk.inj (Except.ok.inj h)
          exact hloc
        | cons next rest =>
          rw [hrest] at h
          exact eq_directory_of_walkOn h
      rw [walkOn_dot hhere]
      exact ih h
    · rw [List.filter_cons_of_pos (by simpa using hdot), ← List.singleton_append,
        walkOn_append] at h
      obtain ⟨⟨place, more⟩, hfirst, hrest⟩ := bind_eq_ok_iff.1 h
      rw [← List.singleton_append, walkOn_append, hfirst]
      exact ih hrest

/-- **A path of which lexical reading takes nothing back** leads where its clean spelling does. -/
theorem leadsAsWritten_of_takesNothingBack (h : Path.TakesNothingBack dir) (cwd : String) :
    fs.LeadsAsWritten cwd dir := by
  intro loc left hclean hloc
  have hnames : Path.cleanNames dir = (walkNames dir).filter (· ≠ ".") := by
    rw [h.cleanNames_eq, walkNames, List.filter_filter]
    refine List.filter_congr fun name _ ↦ ?_
    rw [Bool.and_comm]
  rw [hnames] at hclean
  have hrun := walkOn_of_filter hclean hloc
  cases hlong : pathIsTooLong dir with
  | true =>
    refine .inr ⟨.nameTooLong, ?_, rfl⟩
    rw [walk, if_neg h.ne_empty, if_pos hlong]
  | false =>
    have hdir : fs.isDirectoryAt loc = true := by rw [isDirectoryAt, hloc]
    exact .inl (walk_of_walkOn h.ne_empty hlong hrun hdir)

end ResourceLocator.FileSystem
