import ResourceLocator.Locate.Resource
import ResourceLocator.Proofs.Except
import ResourceLocator.Proofs.FirstOccurrence
import ResourceLocator.Proofs.Session

/-!
# Finding and listing

To find a name is to look for the first directory that *holds* a file of that name (`find_eq_ok`).
To list a search path is to collect, for each name, the file of the first directory that *shows*
it: one that has the name among its entries and holds the file (`mem_list_iff`). So the two agree
on a name if every directory that holds it shows it (`find_eq_some_iff_mem_list`); the converse is
always so.

Both only ask questions. In a session they answer as they do on its disk (`runIn_find`,
`runIn_list`).
-/

namespace ResourceLocator.Resource

variable {cwd name dir : String} {entries : String → Except Failure (List String)}
  {isFile : String → Except Failure Bool} {found : Option Resource} {listed : List Resource}
  {resource : Resource} {searchPath names seen : List String}

/-- The resource of a name in a directory. -/
def ofName (name dir : String) : Resource := ⟨name, Path.join [dir, name], dir⟩

/-- Whether a directory holds a file of a name. -/
def holds (isFile : String → Except Failure Bool) (name dir : String) : Bool :=
  match isFile (Path.join [dir, name]) with
  | .ok answer => answer
  | .error _ => false

/-- Whether a directory shows a file of a name: it holds it, and has the name among its entries. -/
def shows (entries : String → Except Failure (List String))
    (isFile : String → Except Failure Bool) (name dir : String) : Bool :=
  match entries dir with
  | .ok names => names.contains name && holds isFile name dir
  | .error _ => false

theorem holds_of_shows (h : shows entries isFile name dir = true) :
    holds isFile name dir = true := by
  unfold shows at h
  split at h
  · exact (Bool.and_eq_true_iff.1 h).2
  · cases h

theorem holds_of_isFile {answer : Bool} (h : isFile (Path.join [dir, name]) = .ok answer) :
    holds isFile name dir = answer := by
  rw [holds, h]

theorem isFile_of_holds (h : holds isFile name dir = true) :
    isFile (Path.join [dir, name]) = .ok true := by
  unfold holds at h
  split at h
  · next answer hanswer => rw [hanswer, h]
  · cases h

theorem shows_of_entries (h : entries dir = .ok names) :
    shows entries isFile name dir = (names.contains name && holds isFile name dir) := by
  rw [shows, h]

/-! ### Finding -/

/-- **What is found** is the file of the first directory that holds the name. -/
theorem find_eq_ok (h : find cwd isFile name searchPath = .ok found) :
    found = (searchPath.find? (holds isFile name)).map (ofName name) := by
  induction searchPath with
  | nil => exact (Except.ok.inj h).symm
  | cons dir rest ih =>
    rw [find] at h
    split at h
    · cases h
    · obtain ⟨answer, hanswer, h⟩ := bind_eq_ok_iff.1 h
      rw [List.find?_cons, holds_of_isFile hanswer]
      cases answer with
      | true => exact (Except.ok.inj h).symm
      | false => exact ih h

theorem find_cons_of_isFile (hinside : isInside cwd dir name = true)
    (hfile : isFile (Path.join [dir, name]) = .ok true) :
    find cwd isFile name (dir :: searchPath) = .ok (some (ofName name dir)) := by
  rw [find, hinside]
  simp only [Bool.not_true, Bool.false_eq_true, if_false, hfile]
  rfl

/-! ### Listing -/

/-- **One entry** is left out, because its name has been seen or has another extension, or its file
is asked for: then it is listed and seen, or passed over. -/
theorem listIn_cons_eq_ok_iff {wanted : Option String} :
    listIn isFile wanted dir seen (name :: names) = .ok listed ↔
      ((name ∈ seen ∨ hasExtension wanted name = false) ∧
        listIn isFile wanted dir seen names = .ok listed) ∨
      (name ∉ seen ∧ hasExtension wanted name = true ∧ isFile (Path.join [dir, name]) = .ok true ∧
        ∃ more, listIn isFile wanted dir (name :: seen) names = .ok more ∧
          listed = ofName name dir :: more) ∨
      (name ∉ seen ∧ hasExtension wanted name = true ∧ isFile (Path.join [dir, name]) = .ok false ∧
        listIn isFile wanted dir seen names = .ok listed) := by
  rw [listIn]
  by_cases hleft : name ∈ seen ∨ hasExtension wanted name = false
  · have hskip : (seen.contains name || !hasExtension wanted name) = true := by simpa using hleft
    have hnot : ¬(name ∉ seen ∧ hasExtension wanted name = true) := fun ⟨hnew, hhas⟩ ↦
      hleft.elim hnew fun h ↦ Bool.false_ne_true (h.symm.trans hhas)
    rw [if_pos hskip]
    simp only [hleft, true_and, ← and_assoc, hnot, false_and, or_false]
  · obtain ⟨hnew, hhas⟩ : name ∉ seen ∧ hasExtension wanted name = true := by simpa using hleft
    have hkeep : ¬(seen.contains name || !hasExtension wanted name) = true := by simpa using hleft
    rw [if_neg hkeep]
    simp only [hnew, hhas, reduceCtorEq, or_self, false_and, false_or, true_and, not_false_eq_true]
    cases hfile : isFile (Path.join [dir, name]) with
    | error failure => simp [bind, Except.bind]
    | ok answer =>
      cases answer with
      | false => simp [bind, Except.bind]
      | true =>
        cases listIn isFile wanted dir (name :: seen) names with
        | error failure => simp [bind, Except.bind]
        | ok more => simp [bind, Except.bind, pure, Except.pure, ofName, eq_comm]

/-- **One directory** is listed before the rest, whose names then count as seen. -/
theorem listFrom_cons_eq_ok_iff {wanted : Option String} :
    listFrom entries isFile wanted seen (dir :: searchPath) = .ok listed ↔
      ∃ names found more, entries dir = .ok names ∧
        listIn isFile wanted dir seen names = .ok found ∧
        listFrom entries isFile wanted (found.map (·.name) ++ seen) searchPath = .ok more ∧
        listed = found ++ more := by
  rw [listFrom]
  constructor
  · intro h
    obtain ⟨names, hnames, h⟩ := bind_eq_ok_iff.1 h
    obtain ⟨found, hfound, h⟩ := bind_eq_ok_iff.1 h
    obtain ⟨more, hmore, h⟩ := bind_eq_ok_iff.1 h
    exact ⟨names, found, more, hnames, hfound, hmore, (Except.ok.inj h).symm⟩
  · rintro ⟨names, found, more, hnames, hfound, hmore, rfl⟩
    exact bind_eq_ok_iff.2 ⟨names, hnames, bind_eq_ok_iff.2 ⟨found, hfound,
      bind_eq_ok_iff.2 ⟨more, hmore, rfl⟩⟩⟩

/-- **A directory is listed in the order of its entries**: the first entry of each name that has not
been seen and whose file it holds. -/
theorem listIn_eq (h : listIn isFile none dir seen names = .ok listed) :
    listed = (names.filter fun name ↦ !seen.contains name && holds isFile name dir).eraseDups.map
      (ofName · dir) := by
  induction names generalizing seen listed with
  | nil => exact (Except.ok.inj h).symm
  | cons name rest ih =>
    rcases listIn_cons_eq_ok_iff.1 h with
      ⟨hseen | hother, hrest⟩ | ⟨hnew, -, hfile, more, hmore, rfl⟩ | ⟨-, -, hfile, hrest⟩
    · rw [ih hrest, List.filter_cons_of_neg (by simp [hseen])]
    · cases hother
    · have hothers : (rest.filter fun other ↦ !seen.contains other && holds isFile other dir).filter
            (fun other ↦ !other == name) =
          rest.filter fun other ↦ !(name :: seen).contains other && holds isFile other dir := by
        rw [List.filter_filter]
        refine List.filter_congr fun other _ ↦ ?_
        rw [List.contains_cons, Bool.not_or, Bool.and_assoc]
      rw [ih hmore, List.filter_cons_of_pos (by simp [hnew, holds_of_isFile hfile]),
        List.eraseDups_cons, hothers, List.map_cons]
    · rw [ih hrest, List.filter_cons_of_neg (by simp [holds_of_isFile hfile])]

/-- **What is listed of a directory** are the names among its entries that have not been seen and
whose files it holds. -/
theorem mem_listIn_iff (h : listIn isFile none dir seen names = .ok listed) :
    resource ∈ listed ↔ resource = ofName resource.name dir ∧ resource.name ∈ names ∧
      resource.name ∉ seen ∧ holds isFile resource.name dir = true := by
  have hname : ∀ name, name ∈ (names.filter fun name ↦ !seen.contains name &&
      holds isFile name dir).eraseDups ↔
        name ∈ names ∧ name ∉ seen ∧ holds isFile name dir = true := by
    intro name
    rw [List.mem_eraseDups, List.mem_filter, Bool.and_eq_true, Bool.not_eq_true',
      ← Bool.not_eq_true, List.contains_iff_mem]
  rw [listIn_eq h, List.mem_map]
  constructor
  · rintro ⟨name, hmem, rfl⟩
    exact ⟨rfl, (hname name).1 hmem⟩
  · rintro ⟨heq, hmem⟩
    exact ⟨resource.name, (hname _).2 hmem, heq.symm⟩

/-- What is listed of a directory, of any extension, is the file of one of its entries. -/
theorem of_mem_listIn {wanted : Option String}
    (h : listIn isFile wanted dir seen names = .ok listed) (hresource : resource ∈ listed) :
    resource = ofName resource.name dir ∧ resource.name ∈ names := by
  induction names generalizing seen listed with
  | nil =>
    obtain rfl := Except.ok.inj h
    exact absurd hresource List.not_mem_nil
  | cons name rest ih =>
    have hlater : ∀ {seen listed}, listIn isFile wanted dir seen rest = .ok listed →
        resource ∈ listed → resource = ofName resource.name dir ∧ resource.name ∈ name :: rest :=
      fun hrest hmem ↦ (ih hrest hmem).imp_right (List.mem_cons_of_mem _)
    rcases listIn_cons_eq_ok_iff.1 h with
      ⟨-, hrest⟩ | ⟨-, -, -, more, hmore, rfl⟩ | ⟨-, -, -, hrest⟩
    · exact hlater hrest hresource
    · rcases List.mem_cons.1 hresource with rfl | hresource
      · exact ⟨rfl, List.mem_cons_self⟩
      · exact hlater hmore hresource
    · exact hlater hrest hresource

/-- What is listed of a search path, of any extension, is the file of one entry of one of its
directories. -/
theorem of_mem_listFrom {wanted : Option String}
    (h : listFrom entries isFile wanted seen searchPath = .ok listed)
    (hresource : resource ∈ listed) :
    resource = ofName resource.name resource.dir ∧ resource.dir ∈ searchPath ∧
      ∃ names, entries resource.dir = .ok names ∧ resource.name ∈ names := by
  induction searchPath generalizing seen listed with
  | nil =>
    obtain rfl := Except.ok.inj h
    exact absurd hresource List.not_mem_nil
  | cons dir rest ih =>
    obtain ⟨names, found, more, hnames, hfound, hmore, rfl⟩ := listFrom_cons_eq_ok_iff.1 h
    rcases List.mem_append.1 hresource with hresource | hresource
    · obtain ⟨heq, hmem⟩ := of_mem_listIn hfound hresource
      obtain rfl : resource.dir = dir := congrArg Resource.dir heq
      exact ⟨heq, List.mem_cons_self, names, hnames, hmem⟩
    · obtain ⟨heq, hdir, hentry⟩ := ih hmore hresource
      exact ⟨heq, List.mem_cons_of_mem _ hdir, hentry⟩

/-- **What is listed of a search path** is, for each name that has not been seen, the file of the
first directory that shows it. -/
theorem mem_listFrom_iff (h : listFrom entries isFile none seen searchPath = .ok listed) :
    resource ∈ listed ↔ resource.name ∉ seen ∧
      (searchPath.find? (shows entries isFile resource.name)).map (ofName resource.name) =
        some resource := by
  induction searchPath generalizing seen listed with
  | nil =>
    obtain rfl := Except.ok.inj h
    simp
  | cons dir rest ih =>
    obtain ⟨names, found, more, hnames, hfound, hmore, rfl⟩ := listFrom_cons_eq_ok_iff.1 h
    have hshows : shows entries isFile resource.name dir =
        (names.contains resource.name && holds isFile resource.name dir) := shows_of_entries hnames
    have hseen : resource.name ∈ found.map (·.name) ↔
        resource.name ∉ seen ∧ shows entries isFile resource.name dir = true := by
      rw [hshows, List.mem_map]
      constructor
      · rintro ⟨other, hother, hname⟩
        obtain ⟨-, hmem, hnew, hholds⟩ := (mem_listIn_iff hfound).1 hother
        rw [hname] at hmem hnew hholds
        exact ⟨hnew, by simp [hmem, hholds]⟩
      · rintro ⟨hnew, hshown⟩
        obtain ⟨hmem, hholds⟩ : resource.name ∈ names ∧ holds isFile resource.name dir = true := by
          simpa using hshown
        exact ⟨ofName resource.name dir,
          (mem_listIn_iff hfound).2 ⟨rfl, hmem, hnew, hholds⟩, rfl⟩
    rw [List.mem_append, ih hmore, mem_listIn_iff hfound, List.mem_append, not_or, hseen,
      List.find?_cons]
    cases hshown : shows entries isFile resource.name dir with
    | true =>
      -- The directory takes the name, so that no later one counts.
      rw [hshows, Bool.and_eq_true_iff, List.contains_iff_mem] at hshown
      simp only [Option.map_some, Option.some.injEq]
      constructor
      · rintro (⟨heq, -, hnew, -⟩ | ⟨⟨hnot, hnew⟩, -⟩)
        · exact ⟨hnew, heq.symm⟩
        · exact absurd ⟨hnew, trivial⟩ hnot
      · rintro ⟨hnew, heq⟩
        exact .inl ⟨heq.symm, hshown.1, hnew, hshown.2⟩
    | false =>
      rw [hshows] at hshown
      constructor
      · rintro (⟨-, hmem, -, hholds⟩ | ⟨⟨-, hnew⟩, hrest⟩)
        · simp [hmem, hholds] at hshown
        · exact ⟨hnew, hrest⟩
      · rintro ⟨hnew, hrest⟩
        exact .inr ⟨⟨fun hboth ↦ (Bool.false_ne_true hboth.2), hnew⟩, hrest⟩

theorem mem_list_iff (h : list entries isFile none searchPath = .ok listed) :
    resource ∈ listed ↔
      (searchPath.find? (shows entries isFile resource.name)).map (ofName resource.name) =
        some resource := by
  rw [mem_listFrom_iff h]
  exact and_iff_right List.not_mem_nil

theorem exists_entries_of_listFrom
    (h : listFrom entries isFile none seen searchPath = .ok listed) (hdir : dir ∈ searchPath) :
    ∃ names, entries dir = .ok names := by
  induction searchPath generalizing seen listed with
  | nil => exact absurd hdir List.not_mem_nil
  | cons first rest ih =>
    obtain ⟨names, _, more, hnames, -, hmore, -⟩ := listFrom_cons_eq_ok_iff.1 h
    rcases List.mem_cons.1 hdir with rfl | hdir
    · exact ⟨names, hnames⟩
    · exact ih hmore hdir

/-- A search path is listed only if each of its directories is. -/
theorem exists_entries_of_list (h : list entries isFile none searchPath = .ok listed)
    (hdir : dir ∈ searchPath) : ∃ names, entries dir = .ok names :=
  exists_entries_of_listFrom h hdir

/-! ### Agreement -/

/-- A name that is listed is found. -/
theorem isSome_find_of_mem_list (hlist : list entries isFile none searchPath = .ok listed)
    (hfind : find cwd isFile name searchPath = .ok found) (hresource : resource ∈ listed)
    (hname : resource.name = name) : found.isSome := by
  obtain ⟨dir, hdir, -⟩ := Option.map_eq_some_iff.1 ((mem_list_iff hlist).1 hresource)
  rw [hname] at hdir
  rw [find_eq_ok hfind, Option.isSome_map, List.find?_isSome]
  exact ⟨dir, List.mem_of_find?_eq_some hdir, holds_of_shows (List.find?_some hdir)⟩

/-- **Finding and listing agree** on a name if every directory that holds it shows it. -/
theorem find_eq_some_iff_mem_list (hlist : list entries isFile none searchPath = .ok listed)
    (hfind : find cwd isFile name searchPath = .ok found)
    (hshows : ∀ dir ∈ searchPath, holds isFile name dir = true →
      shows entries isFile name dir = true) :
    found = some resource ↔ resource ∈ listed ∧ resource.name = name := by
  have hsame : searchPath.find? (holds isFile name) =
      searchPath.find? (shows entries isFile name) := by
    rw [← List.head?_filter, ← List.head?_filter]
    refine congrArg List.head? (List.filter_congr fun dir hdir ↦ ?_)
    exact Bool.eq_iff_iff.2 ⟨hshows dir hdir, holds_of_shows⟩
  rw [find_eq_ok hfind, hsame]
  constructor
  · intro h
    obtain ⟨dir, hdir, rfl⟩ := Option.map_eq_some_iff.1 h
    exact ⟨(mem_list_iff hlist).2 h, rfl⟩
  · rintro ⟨hresource, rfl⟩
    exact (mem_list_iff hlist).1 hresource

/-! ### Failures -/

/-- **A lookup fails** because the name is refused, or because of a question about a file. -/
theorem isGeneral_of_find {failure : Failure}
    (hisFile : ∀ path failure, isFile path = .error failure → failure.IsGeneral)
    (h : find cwd isFile name searchPath = .error failure) : failure.IsGeneral := by
  induction searchPath with
  | nil => cases h
  | cons dir rest ih =>
    rw [find] at h
    split at h
    · obtain rfl := Except.error.inj h
      exact .resourceName name
    · rcases bind_eq_error_iff.1 h with h | ⟨answer, -, h⟩
      · exact hisFile _ _ h
      · cases answer with
        | true => cases h
        | false => exact ih h

theorem isGeneral_of_listIn {failure : Failure} {wanted : Option String}
    (hisFile : ∀ path failure, isFile path = .error failure → failure.IsGeneral)
    (h : listIn isFile wanted dir seen names = .error failure) : failure.IsGeneral := by
  induction names generalizing seen with
  | nil => cases h
  | cons name rest ih =>
    rw [listIn] at h
    split at h
    · exact ih h
    · rcases bind_eq_error_iff.1 h with h | ⟨answer, -, h⟩
      · exact hisFile _ _ h
      · cases answer with
        | true =>
          rcases bind_eq_error_iff.1 h with h | ⟨more, -, h⟩
          · exact ih h
          · cases h
        | false => exact ih h

/-- **A list fails** because of a question about a directory or a file. -/
theorem isGeneral_of_listFrom {failure : Failure} {wanted : Option String}
    (hentries : ∀ dir failure, entries dir = .error failure → failure.IsGeneral)
    (hisFile : ∀ path failure, isFile path = .error failure → failure.IsGeneral)
    (h : listFrom entries isFile wanted seen searchPath = .error failure) : failure.IsGeneral := by
  induction searchPath generalizing seen with
  | nil => cases h
  | cons dir rest ih =>
    rw [listFrom] at h
    rcases bind_eq_error_iff.1 h with h | ⟨names, -, h⟩
    · exact hentries _ _ h
    · rcases bind_eq_error_iff.1 h with h | ⟨found, -, h⟩
      · exact isGeneral_of_listIn hisFile h
      · rcases bind_eq_error_iff.1 h with h | ⟨more, -, h⟩
        · exact ih h
        · cases h

/-! ### In a session -/

theorem runIn_find (cwd name : String) (searchPath : List String) (w : World) :
    (find cwd Session.probe.isFile name searchPath).runIn w =
      (find cwd (w.disk.probe w.cwd).isFile name searchPath, w) := by
  induction searchPath with
  | nil => rfl
  | cons dir rest ih =>
    rw [find, find]
    split
    · rfl
    · refine Session.runIn_bind_of_question (Session.runIn_probe_isFile _ w) fun answer ↦ ?_
      cases answer with
      | true => rfl
      | false => exact ih

theorem runIn_listIn (wanted : Option String) (dir : String) (seen names : List String)
    (w : World) :
    (listIn Session.probe.isFile wanted dir seen names).runIn w =
      (listIn (w.disk.probe w.cwd).isFile wanted dir seen names, w) := by
  induction names generalizing seen with
  | nil => rfl
  | cons name rest ih =>
    rw [listIn, listIn]
    split
    · exact ih seen
    · refine Session.runIn_bind_of_question (Session.runIn_probe_isFile _ w) fun answer ↦ ?_
      cases answer with
      | true => exact Session.runIn_bind_of_question (ih (name :: seen)) fun _ ↦ rfl
      | false => exact ih seen

theorem runIn_listFrom (wanted : Option String) (seen searchPath : List String) (w : World) :
    (listFrom Session.probe.entries Session.probe.isFile wanted seen searchPath).runIn w =
      (listFrom (w.disk.probe w.cwd).entries (w.disk.probe w.cwd).isFile wanted seen searchPath,
        w) := by
  induction searchPath generalizing seen with
  | nil => rfl
  | cons dir rest ih =>
    refine Session.runIn_bind_of_question (Session.runIn_probe_entries dir w) fun names ↦ ?_
    refine Session.runIn_bind_of_question (runIn_listIn wanted dir seen names w) fun found ↦ ?_
    exact Session.runIn_bind_of_question (ih _) fun _ ↦ rfl

theorem runIn_list (searchPath : List String) (extension : Option String) (w : World) :
    (list Session.probe.entries Session.probe.isFile extension searchPath).runIn w =
      (list (w.disk.probe w.cwd).entries (w.disk.probe w.cwd).isFile extension searchPath, w) :=
  runIn_listFrom _ _ _ w

theorem failsOnly_find (cwd name : String) (searchPath : List String) :
    Session.FailsOnly Failure.IsGeneral (find cwd Session.probe.isFile name searchPath) := by
  intro w failure after h
  rw [runIn_find] at h
  exact isGeneral_of_find (fun _ _ ↦ FileSystem.isGeneral_of_isFile) (congrArg Prod.fst h)

theorem failsOnly_list (searchPath : List String) (extension : Option String) :
    Session.FailsOnly Failure.IsGeneral
      (list Session.probe.entries Session.probe.isFile extension searchPath) := by
  intro w failure after h
  rw [runIn_list] at h
  exact isGeneral_of_listFrom (fun _ _ ↦ FileSystem.isGeneral_of_entries)
    (fun _ _ ↦ FileSystem.isGeneral_of_isFile) (congrArg Prod.fst h)

end ResourceLocator.Resource
