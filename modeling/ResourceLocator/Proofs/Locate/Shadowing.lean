import ResourceLocator.Proofs.Locate.Scan

/-!
# The order of a list, and lists of one extension

A list shows each name where it is shown first. Its order is the one in which the search path is
read (`Precedes`): an entry precedes another if its directory has an earlier first position, or an
earlier entry has its name in the same directory. That it is (`pairwise_listFrom`) rests on the
directories that have been *read* before: whatever one of these shows has been seen. In particular a
directory that is read again shows nothing new.

A list of one extension leaves names out before it is asked whether they have been seen. It is the
whole list without the other names (`listFrom_filter`), because no name of the extension is ever
seen on account of one that is not.
-/

namespace ResourceLocator.Resource

variable {dir name : String} {entries : String → Except Failure (List String)}
  {isFile : String → Except Failure Bool} {listed : List Resource} {resource : Resource}
  {searchPath before names seen seen' : List String} {wanted : Option String}

/-! ### Order -/

/-- One resource comes before another: its directory is first reached earlier on the search path, or
they are of one directory and its name is the earlier entry. -/
def Precedes (entries : String → Except Failure (List String)) (searchPath : List String)
    (resource other : Resource) : Prop :=
  searchPath.idxOf resource.dir < searchPath.idxOf other.dir ∨
    (resource.dir = other.dir ∧ ∃ names, entries resource.dir = .ok names ∧
      names.idxOf resource.name < names.idxOf other.name)

theorem Precedes.irrefl : ¬ Precedes entries searchPath resource resource := by
  rintro (h | ⟨-, names, -, h⟩)
  · exact Nat.lt_irrefl _ h
  · exact Nat.lt_irrefl _ h

theorem shows_iff : shows entries isFile name dir = true ↔
    ∃ names, entries dir = .ok names ∧ name ∈ names ∧
      isFile (Path.join [dir, name]) = .ok true := by
  constructor
  · intro h
    unfold shows at h
    split at h
    · next names hnames =>
      rw [Bool.and_eq_true, List.contains_iff_mem] at h
      exact ⟨names, hnames, h.1, isFile_of_holds h.2⟩
    · cases h
  · rintro ⟨names, hnames, hmem, hfile⟩
    rw [shows_of_entries hnames, holds_of_isFile hfile, Bool.and_true, List.contains_iff_mem]
    exact hmem

/-- **A directory is listed in the order of its entries.** -/
theorem pairwise_listIn (hnames : entries dir = .ok names)
    (h : listIn isFile none dir seen names = .ok listed) :
    listed.Pairwise (Precedes entries searchPath) := by
  rw [listIn_eq h, List.pairwise_map, eraseDups_filter]
  exact ((pairwise_idxOf_eraseDups names).filter _).imp fun hlt ↦ .inr ⟨rfl, names, hnames, hlt⟩

/-- What a directory shows has been seen once it has been listed. -/
theorem seen_of_shows (hnames : entries dir = .ok names)
    (h : listIn isFile none dir seen names = .ok listed)
    (hshows : shows entries isFile name dir = true) : name ∈ listed.map (·.name) ++ seen := by
  rw [shows_of_entries hnames, Bool.and_eq_true, List.contains_iff_mem] at hshows
  by_cases hseen : name ∈ seen
  · exact List.mem_append_right _ hseen
  · have hmem : ofName name dir ∈ listed :=
      (mem_listIn_iff h).2 ⟨rfl, hshows.1, hseen, hshows.2⟩
    exact List.mem_append_left _ (List.mem_map_of_mem hmem)

/-- What is listed of a search path is shown by its directory, which is one of the path. -/
theorem shows_of_mem_listFrom (h : listFrom entries isFile none seen searchPath = .ok listed)
    (hresource : resource ∈ listed) :
    resource.name ∉ seen ∧ shows entries isFile resource.name resource.dir = true := by
  obtain ⟨hnew, hfirst⟩ := (mem_listFrom_iff h).1 hresource
  obtain ⟨dir, hdir, heq⟩ := Option.map_eq_some_iff.1 hfirst
  have hsame : dir = resource.dir := congrArg Resource.dir heq
  exact ⟨hnew, hsame ▸ List.find?_some hdir⟩

/-- **A search path is listed in its order.** Whatever the directories before it show has been
seen. -/
theorem pairwise_listFrom (before : List String)
    (h : listFrom entries isFile none seen searchPath = .ok listed)
    (hbefore : ∀ dir ∈ before, ∀ name, shows entries isFile name dir = true → name ∈ seen) :
    listed.Pairwise (Precedes entries (before ++ searchPath)) := by
  induction searchPath generalizing before seen listed with
  | nil =>
    obtain rfl := Except.ok.inj h
    exact .nil
  | cons dir rest ih =>
    obtain ⟨names, found, more, hnames, hfound, hmore, rfl⟩ := listFrom_cons_eq_ok_iff.1 h
    have hseen : ∀ other ∈ before ++ [dir], ∀ name, shows entries isFile name other = true →
        name ∈ found.map (·.name) ++ seen := by
      intro other hother name hshows
      rcases List.mem_append.1 hother with hother | hother
      · exact List.mem_append_right _ (hbefore other hother name hshows)
      · obtain rfl := List.mem_singleton.1 hother
        exact seen_of_shows hnames hfound hshows
    have hlater := ih (before ++ [dir]) hmore hseen
    rw [List.append_assoc, List.singleton_append] at hlater
    refine List.pairwise_append.2 ⟨pairwise_listIn hnames hfound, hlater, ?_⟩
    -- A directory of which something is listed has not been read before, and is not read again.
    intro resource hresource other hother
    obtain ⟨heq, hmem, hnew, hholds⟩ := (mem_listIn_iff hfound).1 hresource
    have hdir : resource.dir = dir := congrArg Resource.dir heq
    have hshows : shows entries isFile resource.name dir = true := by
      rw [shows_of_entries hnames, hholds, Bool.and_true, List.contains_iff_mem]
      exact hmem
    obtain ⟨hotherNew, hotherShows⟩ := shows_of_mem_listFrom hmore hother
    have hotherDir : other.dir ∉ before ++ [dir] := fun hmem ↦
      hotherNew (hseen _ hmem _ hotherShows)
    rw [List.mem_append, List.mem_singleton, not_or] at hotherDir
    rw [Precedes, hdir]
    exact .inl
      (idxOf_lt_idxOf (fun hmem ↦ hnew (hbefore dir hmem _ hshows)) hotherDir.1 hotherDir.2)

/-! ### One extension -/

/-- What has been seen of one extension. -/
def SameSeen (wanted : Option String) (seen' seen : List String) : Prop :=
  ∀ name, hasExtension wanted name = true → (name ∈ seen' ↔ name ∈ seen)

/-- **Names of one extension are listed of a directory as they are among all names.** -/
theorem listIn_filter (h : listIn isFile none dir seen names = .ok listed)
    (hseen : SameSeen wanted seen' seen) : listIn isFile wanted dir seen' names =
      .ok (listed.filter fun resource ↦ hasExtension wanted resource.name) := by
  induction names generalizing seen seen' listed with
  | nil =>
    obtain rfl := Except.ok.inj h
    rfl
  | cons name rest ih =>
    rw [listIn_cons_eq_ok_iff]
    cases hwanted : hasExtension wanted name with
    | false =>
      -- The name is left out, and what is listed of it among all names has not the extension.
      refine .inl ⟨.inr rfl, ?_⟩
      rcases listIn_cons_eq_ok_iff.1 h with
        ⟨-, hrest⟩ | ⟨-, -, -, more, hmore, rfl⟩ | ⟨-, -, -, hrest⟩
      · exact ih hrest hseen
      · rw [List.filter_cons_of_neg (by simp [ofName, hwanted])]
        refine ih hmore fun other hother ↦ ?_
        have hne : other ≠ name := by
          rintro rfl
          exact Bool.false_ne_true (hwanted.symm.trans hother)
        rw [hseen other hother, List.mem_cons, or_iff_right hne]
      · exact ih hrest hseen
    | true =>
      rcases listIn_cons_eq_ok_iff.1 h with
        ⟨hold | hother, hrest⟩ | ⟨hnew, -, hfile, more, hmore, rfl⟩ | ⟨hnew, -, hfile, hrest⟩
      · exact .inl ⟨.inl ((hseen name hwanted).2 hold), ih hrest hseen⟩
      · cases hother
      · refine .inr (.inl ⟨mt (hseen name hwanted).1 hnew, rfl, hfile, _, ih hmore ?_, ?_⟩)
        · intro other hother
          rw [List.mem_cons, List.mem_cons, hseen other hother]
        · rw [List.filter_cons_of_pos (by simpa [ofName] using hwanted)]
      · exact .inr (.inr ⟨mt (hseen name hwanted).1 hnew, rfl, hfile, ih hrest hseen⟩)

/-- **A list of one extension is the whole list without the other names.** -/
theorem listFrom_filter (h : listFrom entries isFile none seen searchPath = .ok listed)
    (hseen : SameSeen wanted seen' seen) : listFrom entries isFile wanted seen' searchPath =
      .ok (listed.filter fun resource ↦ hasExtension wanted resource.name) := by
  induction searchPath generalizing seen seen' listed with
  | nil =>
    obtain rfl := Except.ok.inj h
    rfl
  | cons dir rest ih =>
    obtain ⟨names, found, more, hnames, hfound, hmore, rfl⟩ := listFrom_cons_eq_ok_iff.1 h
    refine listFrom_cons_eq_ok_iff.2 ⟨names, _, _, hnames, listIn_filter hfound hseen,
      ih hmore fun name hname ↦ ?_, List.filter_append ..⟩
    have hfoundName : name ∈ (found.filter fun resource ↦ hasExtension wanted resource.name).map
        (·.name) ↔ name ∈ found.map (·.name) := by
      simp only [List.mem_map, List.mem_filter]
      constructor
      · rintro ⟨resource, ⟨hmem, -⟩, rfl⟩
        exact ⟨resource, hmem, rfl⟩
      · rintro ⟨resource, hmem, rfl⟩
        exact ⟨resource, ⟨hmem, hname⟩, rfl⟩
    rw [List.mem_append, List.mem_append, hseen name hname, hfoundName]

/-! ### Lists that do not fail -/

/-- Every question about the directories of a search path and their entries is answered. -/
def IsAnswered (entries : String → Except Failure (List String))
    (isFile : String → Except Failure Bool) (searchPath : List String) : Prop :=
  ∀ dir ∈ searchPath, ∃ names, entries dir = .ok names ∧
    ∀ name ∈ names, ∃ answer, isFile (Path.join [dir, name]) = .ok answer

/-- Listing a directory asks for the file of each entry, unless its name has been seen or has
another extension, and goes on only with an answer. -/
theorem exists_answer_of_listIn (h : listIn isFile wanted dir seen names = .ok listed) :
    ∀ name ∈ names, name ∉ seen → hasExtension wanted name = true →
      ∃ answer, isFile (Path.join [dir, name]) = .ok answer := by
  induction names generalizing seen listed with
  | nil => exact fun _ hname ↦ absurd hname List.not_mem_nil
  | cons name rest ih =>
    rw [List.forall_mem_cons]
    rcases listIn_cons_eq_ok_iff.1 h with
      ⟨hseen | hother, hrest⟩ | ⟨-, -, hfile, more, hmore, -⟩ | ⟨-, -, hfile, hrest⟩
    · exact ⟨fun hnew ↦ absurd hseen hnew, ih hrest⟩
    · exact ⟨fun _ hhas ↦ absurd (hother.symm.trans hhas) Bool.false_ne_true, ih hrest⟩
    · refine ⟨fun _ _ ↦ ⟨true, hfile⟩, fun other hmem hnew ↦ ?_⟩
      by_cases hsame : other = name
      · exact fun _ ↦ ⟨true, hsame ▸ hfile⟩
      · exact ih hmore other hmem (by simp [hsame, hnew])
    · exact ⟨fun _ _ ↦ ⟨false, hfile⟩, ih hrest⟩

/-- With these answers a directory is listed. -/
theorem exists_listIn_eq_ok (h : ∀ name ∈ names, name ∉ seen → hasExtension wanted name = true →
      ∃ answer, isFile (Path.join [dir, name]) = .ok answer) :
    ∃ listed, listIn isFile wanted dir seen names = .ok listed := by
  induction names generalizing seen with
  | nil => exact ⟨[], rfl⟩
  | cons name rest ih =>
    rw [List.forall_mem_cons] at h
    simp only [listIn_cons_eq_ok_iff]
    obtain ⟨listed, hrest⟩ := ih h.2
    by_cases hleft : name ∈ seen ∨ hasExtension wanted name = false
    · exact ⟨listed, .inl ⟨hleft, hrest⟩⟩
    · obtain ⟨hnew, hhas⟩ : name ∉ seen ∧ hasExtension wanted name = true := by simpa using hleft
      obtain ⟨answer, hfile⟩ := h.1 hnew hhas
      cases answer with
      | true =>
        have hlater : ∀ other ∈ rest, other ∉ name :: seen → hasExtension wanted other = true →
            ∃ answer, isFile (Path.join [dir, other]) = .ok answer := fun other hmem hother ↦
          h.2 other hmem (mt (List.mem_cons_of_mem name) hother)
        obtain ⟨more, hmore⟩ := ih hlater
        exact ⟨_, .inr (.inl ⟨hnew, hhas, hfile, more, hmore, rfl⟩)⟩
      | false => exact ⟨listed, .inr (.inr ⟨hnew, hhas, hfile, hrest⟩)⟩

/-- Among the names of an extension, those that count as seen once a directory has been listed are
those that have been seen before and those that it shows. -/
theorem mem_seen_iff (hhas : hasExtension wanted name = true)
    (h : listIn isFile wanted dir seen names = .ok listed) :
    name ∈ listed.map (·.name) ++ seen ↔
      name ∈ seen ∨ (name ∈ names ∧ holds isFile name dir = true) := by
  induction names generalizing seen listed with
  | nil =>
    obtain rfl := Except.ok.inj h
    simp
  | cons first rest ih =>
    rw [List.mem_cons]
    rcases listIn_cons_eq_ok_iff.1 h with
      ⟨hseen | hother, hrest⟩ | ⟨-, -, hfile, more, hmore, rfl⟩ | ⟨-, -, hfile, hrest⟩
    · rw [ih hrest]
      by_cases hsame : name = first
      · simp [hsame, hseen]
      · simp [hsame]
    · have hne : name ≠ first := by
        rintro rfl
        exact Bool.false_ne_true (hother.symm.trans hhas)
      rw [ih hrest, or_iff_right hne]
    · have hlater := ih hmore
      rw [List.mem_append, List.mem_cons] at hlater
      rw [List.map_cons, List.cons_append, List.mem_cons, List.mem_append]
      by_cases hsame : name = first
      · simp [hsame, ofName, holds_of_isFile hfile]
      · simpa [hsame, ofName] using hlater
    · rw [ih hrest]
      by_cases hsame : name = first
      · simp [hsame, holds_of_isFile hfile]
      · simp [hsame]

/-- What is asked about a directory when others have been listed before it: its entries, and the
file of each entry of the extension whose name has not been seen and is not shown by any of the
others. -/
def IsAnsweredAfter (entries : String → Except Failure (List String))
    (isFile : String → Except Failure Bool) (wanted : Option String) (seen before : List String)
    (dir : String) : Prop :=
  ∃ names, entries dir = .ok names ∧
    ∀ name ∈ names, name ∉ seen → hasExtension wanted name = true →
      (∀ other ∈ before, shows entries isFile name other = false) →
        ∃ answer, isFile (Path.join [dir, name]) = .ok answer

/-- A directory that has been listed may be said to be one of the others, or its names to have been
seen. -/
theorem isAnsweredAfter_cons_iff {found : List Resource} {other : String}
    (hnames : entries dir = .ok names) (hfound : listIn isFile wanted dir seen names = .ok found) :
    IsAnsweredAfter entries isFile wanted seen (dir :: before) other ↔
      IsAnsweredAfter entries isFile wanted (found.map (·.name) ++ seen) before other := by
  have hnew : ∀ name, hasExtension wanted name = true →
      (name ∉ found.map (·.name) ++ seen ↔
        name ∉ seen ∧ shows entries isFile name dir = false) := by
    intro name hhas
    rw [mem_seen_iff hhas hfound, not_or, shows_of_entries hnames, Bool.and_eq_false_iff,
      Classical.not_and_iff_not_or_not, Bool.not_eq_true, List.contains_eq_mem,
      decide_eq_false_iff_not]
  refine exists_congr fun entriesOf ↦ and_congr_right fun _ ↦ forall₂_congr fun name _ ↦ ?_
  constructor
  · intro h hseen hhas hbefore
    obtain ⟨hold, hshows⟩ := (hnew name hhas).1 hseen
    exact h hold hhas (List.forall_mem_cons.2 ⟨hshows, hbefore⟩)
  · intro h hold hhas hbefore
    obtain ⟨hshows, hrest⟩ := List.forall_mem_cons.1 hbefore
    exact h ((hnew name hhas).2 ⟨hold, hshows⟩) hhas hrest

/-- **A search path is listed if every question that is asked has an answer.** -/
theorem exists_listFrom_eq_ok_iff :
    (∃ listed, listFrom entries isFile wanted seen searchPath = .ok listed) ↔
      ∀ before dir rest, searchPath = before ++ dir :: rest →
        IsAnsweredAfter entries isFile wanted seen before dir := by
  induction searchPath generalizing seen with
  | nil => exact ⟨fun _ before _ _ hsplit ↦ by simp at hsplit, fun _ ↦ ⟨[], rfl⟩⟩
  | cons first path ih =>
    constructor
    · rintro ⟨listed, h⟩ before dir rest hsplit
      obtain ⟨names, found, more, hnames, hfound, hmore, -⟩ := listFrom_cons_eq_ok_iff.1 h
      cases before with
      | nil =>
        obtain ⟨rfl, -⟩ := List.cons.inj hsplit
        exact ⟨names, hnames, fun name hmem hnew hhas _ ↦
          exists_answer_of_listIn hfound name hmem hnew hhas⟩
      | cons other before =>
        obtain ⟨rfl, hrest⟩ := List.cons.inj hsplit
        exact (isAnsweredAfter_cons_iff hnames hfound).2 (ih.1 ⟨more, hmore⟩ before dir rest hrest)
    · intro h
      obtain ⟨names, hnames, hfirst⟩ := h [] first path rfl
      obtain ⟨found, hfound⟩ := exists_listIn_eq_ok fun name hmem hnew hhas ↦
        hfirst name hmem hnew hhas fun _ hother ↦ absurd hother List.not_mem_nil
      obtain ⟨more, hmore⟩ := ih.2 fun before dir rest hsplit ↦
        (isAnsweredAfter_cons_iff hnames hfound).1
          (h (first :: before) dir rest (congrArg (first :: ·) hsplit))
      exact ⟨_, listFrom_cons_eq_ok_iff.2 ⟨names, found, more, hnames, hfound, hmore, rfl⟩⟩

/-- **A list does not fail by itself.** -/
theorem exists_list_eq_ok (extension : Option String) (h : IsAnswered entries isFile searchPath) :
    ∃ listed, list entries isFile extension searchPath = .ok listed := by
  refine exists_listFrom_eq_ok_iff.2 fun before dir rest hsplit ↦ ?_
  obtain ⟨names, hnames, hfiles⟩ := h dir (by simp [hsplit])
  exact ⟨names, hnames, fun name hmem _ _ _ ↦ hfiles name hmem⟩

/-! ### Whole lists -/

theorem pairwise_list (h : list entries isFile none searchPath = .ok listed) :
    listed.Pairwise (Precedes entries searchPath) :=
  pairwise_listFrom [] h fun _ hdir ↦ absurd hdir List.not_mem_nil

/-- An entry of a list is the file of the first directory that shows its name. -/
theorem of_mem_list (h : list entries isFile none searchPath = .ok listed)
    (hresource : resource ∈ listed) : resource.path = Path.join [resource.dir, resource.name] ∧
      searchPath.find? (shows entries isFile resource.name) = some resource.dir := by
  obtain ⟨dir, hdir, heq⟩ := Option.map_eq_some_iff.1 ((mem_list_iff h).1 hresource)
  have hsame : dir = resource.dir := congrArg Resource.dir heq
  rw [hsame] at hdir heq
  exact ⟨(congrArg Resource.path heq).symm, hdir⟩

/-- **No name is listed twice.** Two entries of one name would be the same one, which does not
precede itself. -/
theorem nodup_names_of_list (h : list entries isFile none searchPath = .ok listed) :
    (listed.map (·.name)).Nodup := by
  refine List.pairwise_map.2
    ((pairwise_list h).imp_of_mem fun {resource other} hresource hother hlt hsame ↦ ?_)
  have heq := (mem_list_iff h).1 hresource
  rw [hsame, (mem_list_iff h).1 hother] at heq
  obtain rfl := Option.some.inj heq
  exact Precedes.irrefl hlt

/-- **A name is listed** if and only if some directory shows it. -/
theorem exists_mem_list_iff (h : list entries isFile none searchPath = .ok listed) :
    (∃ resource ∈ listed, resource.name = name) ↔
      ∃ dir ∈ searchPath, shows entries isFile name dir = true := by
  constructor
  · rintro ⟨resource, hresource, rfl⟩
    have hdir := (of_mem_list h hresource).2
    exact ⟨resource.dir, List.mem_of_find?_eq_some hdir, List.find?_some hdir⟩
  · rintro ⟨dir, hdir, hshows⟩
    obtain ⟨first, hfind⟩ := Option.isSome_iff_exists.1
      (List.find?_isSome.2 ⟨dir, hdir, hshows⟩)
    refine ⟨ofName name first, (mem_list_iff h).2 ?_, rfl⟩
    rw [show (ofName name first).name = name from rfl, hfind, Option.map_some]

/-- **A list shows the first file of each name**, in the order of the search path. It has an answer
if the questions have. No name is listed twice; a name is listed if and only if some directory shows
it, that is, has it among its entries and a file of it; and the entry is that of the first such
directory. The entries of a directory stand in its order, and those of different directories in the
order of their first positions on the search path. With an extension, with or without its dot, the
list is the whole one without the names of other extensions. -/
theorem list_shows_first_of_each_name (entries : String → Except Failure (List String))
    (isFile : String → Except Failure Bool) (searchPath : List String) :
    (IsAnswered entries isFile searchPath →
      ∀ extension, ∃ listed, list entries isFile extension searchPath = .ok listed) ∧
    (∀ name dir, shows entries isFile name dir = true ↔ ∃ names, entries dir = .ok names ∧
      name ∈ names ∧ isFile (Path.join [dir, name]) = .ok true) ∧
    ∀ listed, list entries isFile none searchPath = .ok listed →
      (listed.map (·.name)).Nodup ∧
      (∀ name, (∃ resource ∈ listed, resource.name = name) ↔
        ∃ dir ∈ searchPath, shows entries isFile name dir = true) ∧
      (∀ resource ∈ listed, resource.path = Path.join [resource.dir, resource.name] ∧
        searchPath.find? (shows entries isFile resource.name) = some resource.dir) ∧
      listed.Pairwise (Precedes entries searchPath) ∧
      ∀ extension, extension ≠ "" → list entries isFile (some extension) searchPath =
        .ok (listed.filter fun resource ↦ Path.extname resource.name ==
          if extension.toList.head? == some '.' then extension else "." ++ extension) := by
  refine ⟨fun hanswered extension ↦ exists_list_eq_ok extension hanswered, fun _ _ ↦ shows_iff,
    fun listed h ↦ ⟨nodup_names_of_list h, fun _ ↦ exists_mem_list_iff h, fun _ ↦ of_mem_list h,
      pairwise_list h, fun extension hne ↦ ?_⟩⟩
  have hwanted : wantedExtension? (some extension) =
      some (if extension.toList.head? == some '.' then extension else "." ++ extension) := by
    rw [wantedExtension?, Option.filter_some, if_pos (by simpa using hne), Option.map_some]
  rw [list, hwanted]
  exact listFrom_filter h fun _ _ ↦ Iff.rfl

/-- What is no file hides nothing, and a directory that is read again shows nothing new. -/
example : list (m := Id) (fun dir ↦ if dir = "/u" then ["a.m4", "b.m4"] else ["b.m4", "c", "a.m4"])
    (fun path ↦ path != "/u/b.m4") (some "m4") ["/u", "/s", "/u"] =
      [⟨"a.m4", "/u/a.m4", "/u"⟩, ⟨"b.m4", "/s/b.m4", "/s"⟩] := by
  rfl

end ResourceLocator.Resource
