import ResourceLocator.Proofs.FileSystem.Growth

/-!
# Questions to a file system that grows

Whatever is found in a file system is found in a larger one. So a question to the two has one
answer, unless something is new in the larger one and the answer of the smaller one is that nothing
is there. Of file systems that differ in texts alone all questions but those for texts have one
answer (`SameShape`).
-/

namespace ResourceLocator.FileSystem

variable {fs fs' : FileSystem} {cwd path : String} {last : LastName}

/-- Something stands in the second file system where nothing stands in the first. -/
def HasNew (fs fs' : FileSystem) : Prop := ∃ loc, IsNew fs fs' loc

theorem SameShape.not_hasNew (h : SameShape fs fs') : ¬HasNew fs fs' :=
  fun ⟨loc, hnew⟩ ↦ h.not_isNew loc hnew

theorem asCall_map {α β : Type} (call path : String) (outcome : Except Errno α) (f : α → β) :
    (asCall call path outcome).map f = asCall call path (outcome.map f) := by
  cases outcome <;> rfl

namespace Grows

/-! ### Walks -/

theorem isDirectoryAt_cases (h : Grows fs fs') (loc : Location) :
    IsNew fs fs' loc ∧ fs.isDirectoryAt loc = false ∨
      fs'.isDirectoryAt loc = fs.isDirectoryAt loc := by
  unfold isDirectoryAt
  cases hnode : fs.node? loc with
  | none =>
    cases hnode' : fs'.node? loc with
    | none => exact .inr rfl
    | some node => exact .inl ⟨⟨hnode, node, hnode'⟩, rfl⟩
  | some node =>
    cases node with
    | directory => rw [h.directory hnode]; exact .inr rfl
    | link => rw [h.link hnode]; exact .inr rfl
    | file =>
      obtain ⟨text, hnode'⟩ := h.file hnode
      rw [hnode']
      exact .inr rfl

/-- **A path leads to the same in a larger file system**, unless it led nowhere. -/
theorem walk_cases (h : Grows fs fs') (hlast : last ≠ .mayBeNew) (cwd path : String) :
    (HasNew fs fs' ∧ ∃ errno, fs.walk cwd last path = .error errno ∧ errno.isAbsence = true) ∨
      fs'.walk cwd last path = fs.walk cwd last path := by
  by_cases hempty : path = ""
  · exact .inr (by simp [walk, hempty])
  cases hlong : pathIsTooLong path with
  | true => exact .inr (by simp [walk, hempty, hlong])
  | false =>
    have hwalk : ∀ fs : FileSystem, fs.walk cwd last path =
        (fs.walkOn (if Path.endsInSlash path then .followLink else last) maxLinks
          (startOf cwd path) (walkNames path)).bind fun reached ↦
            if Path.endsInSlash path && !fs.isDirectoryAt reached.1 then .error .notDirectory
            else .ok reached.1 := by
      intro fs
      simp only [walk, hempty, hlong, walkFrom, if_false, Bool.false_eq_true]
      cases fs.walkOn (if Path.endsInSlash path then .followLink else last) maxLinks
        (startOf cwd path) (walkNames path) <;> rfl
    have hends : (if Path.endsInSlash path then LastName.followLink else last) ≠ .mayBeNew := by
      split
      · decide
      · exact hlast
    have hwalks := h.walksOn (if Path.endsInSlash path then .followLink else last) maxLinks
      (startOf cwd path) (walkNames path)
    rw [hwalk, hwalk]
    generalize fs.walkOn _ maxLinks (startOf cwd path) (walkNames path) = outcome at hwalks ⊢
    generalize fs'.walkOn _ maxLinks (startOf cwd path) (walkNames path) = outcome' at hwalks ⊢
    cases hwalks with
    | nothing hnew habsence => exact .inl ⟨⟨_, hnew⟩, _, rfl, habsence⟩
    | new _ hmay => exact absurd hmay hends
    | same =>
      cases outcome with
      | error errno => exact .inr rfl
      | ok reached =>
        simp only [Except.bind]
        rcases h.isDirectoryAt_cases reached.1 with ⟨hnew, hnone⟩ | hsame
        · cases Path.endsInSlash path with
          | false => exact .inr rfl
          | true => exact .inl ⟨⟨_, hnew⟩, .notDirectory, by rw [hnone]; rfl, rfl⟩
        · rw [hsame]
          exact .inr rfl

/-! ### Nodes -/

/-- **What a path leads to is the same**, but for texts, unless it led to nothing. -/
theorem nodeAt_cases (h : Grows fs fs') (hlast : last ≠ .mayBeNew) (cwd path : String) :
    (HasNew fs fs' ∧ ∃ errno, fs.nodeAt cwd last path = .error errno ∧ errno.isAbsence = true) ∨
      (fs'.nodeAt cwd last path).map Node.shape = (fs.nodeAt cwd last path).map Node.shape := by
  unfold nodeAt
  rcases h.walk_cases hlast cwd path with ⟨hnew, errno, hwalk, habsence⟩ | hsame
  · rw [hwalk]
    exact .inl ⟨hnew, errno, rfl, habsence⟩
  · rw [hsame]
    cases fs.walk cwd last path with
    | error errno => exact .inr rfl
    | ok loc =>
      simp only [bind, Except.bind]
      cases hnode : fs.node? loc with
      | some node =>
        obtain ⟨node', hnode', hshape⟩ := h loc node hnode
        rw [hnode']
        exact .inr (congrArg Except.ok hshape)
      | none =>
        cases hnode' : fs'.node? loc with
        | none => exact .inr rfl
        | some node => exact .inl ⟨⟨loc, hnode, node, hnode'⟩, .missing, rfl, rfl⟩

theorem stat_cases (h : Grows fs fs') (cwd path : String) :
    (HasNew fs fs' ∧ ∃ fault, (fs.stat cwd path).map Node.shape = .error fault ∧
      fault.errno.isAbsence = true) ∨
      (fs'.stat cwd path).map Node.shape = (fs.stat cwd path).map Node.shape := by
  unfold stat
  rcases h.nodeAt_cases (by decide : LastName.followLink ≠ .mayBeNew) cwd path with
    ⟨hnew, errno, hnode, habsence⟩ | hsame
  · rw [hnode]
    exact .inl ⟨hnew, _, rfl, habsence⟩
  · rw [asCall_map, asCall_map, hsame]
    exact .inr rfl

theorem lstat_cases (h : Grows fs fs') (cwd : String) (loc : Location) :
    (HasNew fs fs' ∧ ∃ fault, fs.lstat cwd loc = .error fault) ∨
      (fs'.lstat cwd loc).map Node.shape = (fs.lstat cwd loc).map Node.shape := by
  unfold lstat
  rcases h.nodeAt_cases (by decide : LastName.keepLink ≠ .mayBeNew) cwd loc.toPath with
    ⟨hnew, errno, hnode, -⟩ | hsame
  · rw [hnode]
    exact .inl ⟨hnew, _, rfl⟩
  · rw [asCall_map, asCall_map, hsame]
    exact .inr rfl

/-! ### Canonical paths -/

/-- **A canonical path is the same in a larger file system**, unless there was none. -/
theorem realpathFrom_cases (h : Grows fs fs') (cwd : String) (budget : Nat) (done : Location)
    (names : List String) :
    (HasNew fs fs' ∧ ∃ fault, fs.realpathFrom cwd budget done names = .error fault) ∨
      fs'.realpathFrom cwd budget done names = fs.realpathFrom cwd budget done names := by
  induction budget, done, names using realpathFrom.induct with
  | case1 budget done => exact .inr (by rw [realpathFrom_nil, realpathFrom_nil])
  | case2 budget done name rest here ihFollow ihKeep =>
    rcases h.lstat_cases cwd (done ++ [name]) with ⟨hnew, fault, hfault⟩ | hsame
    · exact .inl ⟨hnew, fault, realpathFrom_of_error hfault⟩
    cases hnode : fs.lstat cwd (done ++ [name]) with
    | error fault =>
      have hnode' : fs'.lstat cwd (done ++ [name]) = .error fault := by
        rw [hnode] at hsame
        exact map_eq_error_iff.1 hsame
      exact .inr ((realpathFrom_of_error hnode').trans (realpathFrom_of_error hnode).symm)
    | ok node =>
      obtain ⟨node', hnode', hshape⟩ : ∃ node', fs'.lstat cwd (done ++ [name]) = .ok node' ∧
          node'.shape = node.shape := by
        rw [hnode] at hsame
        exact map_eq_ok_iff.1 hsame
      by_cases hlink : ∀ target, node ≠ .link target
      · have hlink' : ∀ target, node' ≠ .link target := by
          rintro target rfl
          exact hlink target (Node.eq_link_of_shape hshape.symm)
        rw [realpathFrom_of_not_link hnode hlink, realpathFrom_of_not_link hnode' hlink']
        exact ihKeep
      · obtain ⟨target, rfl⟩ := by simpa using hlink
        obtain rfl := Node.eq_link_of_shape hshape
        rw [realpathFrom_of_link hnode, realpathFrom_of_link hnode']
        rcases h.stat_cases cwd (done ++ [name]).toPath with ⟨hnew, fault, hfault, -⟩ | hsame
        · rw [map_eq_error_iff.1 hfault]
          exact .inl ⟨hnew, fault, rfl⟩
        · cases hstat : fs.stat cwd (done ++ [name]).toPath with
          | error fault =>
            rw [hstat] at hsame
            rw [map_eq_error_iff.1 hsame]
            exact .inr rfl
          | ok node =>
            rw [hstat] at hsame
            obtain ⟨node', hstat', -⟩ := map_eq_ok_iff.1 hsame
            rw [hstat']
            cases budget with
            | zero => exact .inr rfl
            | succ budget => exact ihFollow target

end Grows

/-! ### The probe -/

section Probe

theorem pairwise_childNames (fs : FileSystem) (loc : Location) :
    (fs.childNames loc).Pairwise Text.NameLt :=
  Text.pairwise_sortNames _

/-- Whether a path leads to a directory is seen without texts. -/
theorem isDirectory_eq_of_shape (fs : FileSystem) (cwd path : String) :
    (fs.probe cwd).isDirectory path =
      answerOf path ((fs.stat cwd path).map Node.shape) (·.any Node.isDirectory) := by
  have hshape : Node.isDirectory = fun node ↦ node.shape.isDirectory := by
    funext node
    cases node <;> rfl
  rw [probe_isDirectory_eq_answerOf, answerOf_any_map, ← hshape]

theorem isFile_eq_of_shape (fs : FileSystem) (cwd path : String) :
    (fs.probe cwd).isFile path =
      answerOf path ((fs.stat cwd path).map Node.shape) (·.any Node.isFile) := by
  have hshape : Node.isFile = fun node ↦ node.shape.isFile := by
    funext node
    cases node <;> rfl
  rw [probe_isFile_eq_answerOf, answerOf_any_map, ← hshape]

/-- A question has one answer if its call has one outcome, and where the first call finds nothing
the first answer says so. -/
theorem answerOf_cases {α β : Type} {outcome outcome' : Except CallFault α} {view : Option α → β}
    (h : (HasNew fs fs' ∧ ∃ fault, outcome = .error fault ∧ fault.errno.isAbsence = true) ∨
      outcome' = outcome) :
    (HasNew fs fs' ∧ answerOf path outcome view = .ok (view none)) ∨
      answerOf path outcome' view = answerOf path outcome view := by
  by_cases hnul : '\x00' ∈ path.toList
  · exact .inr (by rw [answerOf_of_nul hnul, answerOf_of_nul hnul])
  · rcases h with ⟨hnew, fault, rfl, habsence⟩ | rfl
    · exact .inl ⟨hnew, answerOf_of_isAbsence hnul habsence⟩
    · exact .inr rfl

namespace Grows

/-- **A directory stays one.** -/
theorem isDirectory_cases (h : Grows fs fs') (cwd path : String) :
    (HasNew fs fs' ∧ (fs.probe cwd).isDirectory path = .ok false) ∨
      (fs'.probe cwd).isDirectory path = (fs.probe cwd).isDirectory path := by
  rw [isDirectory_eq_of_shape, isDirectory_eq_of_shape]
  exact answerOf_cases (h.stat_cases cwd path)

/-- **A file stays one.** -/
theorem isFile_cases (h : Grows fs fs') (cwd path : String) :
    (HasNew fs fs' ∧ (fs.probe cwd).isFile path = .ok false) ∨
      (fs'.probe cwd).isFile path = (fs.probe cwd).isFile path := by
  rw [isFile_eq_of_shape, isFile_eq_of_shape]
  exact answerOf_cases (h.stat_cases cwd path)

/-- **A canonical path stays one.** -/
theorem realpath_cases (h : Grows fs fs') (cwd path : String) :
    (HasNew fs fs' ∧ ∃ failure, (fs.probe cwd).realpath path = .error failure) ∨
      (fs'.probe cwd).realpath path = (fs.probe cwd).realpath path := by
  simp only [probe, realpath]
  cases guardPath path with
  | error failure => exact .inr rfl
  | ok =>
    simp only [bind, Except.bind]
    rcases h.realpathFrom_cases cwd maxReplacements [] (Path.locate cwd [path]) with
      ⟨hnew, fault, hfault⟩ | hsame
    · rw [hfault]
      exact .inl ⟨hnew, _, rfl⟩
    · rw [hsame]
      exact .inr rfl

/-- **A text stays the same** if the file does. -/
theorem readText_cases (h : Grows fs fs') {cwd path : String}
    (hnode : ∀ loc node, fs'.walk cwd .followLink path = .ok loc → fs.node? loc = some node →
      fs'.node? loc = some node) :
    (HasNew fs fs' ∧ (fs.probe cwd).readText path = .ok none) ∨
      (fs'.probe cwd).readText path = (fs.probe cwd).readText path := by
  rw [probe_readText_eq_answerOf, probe_readText_eq_answerOf]
  refine answerOf_cases ?_
  unfold readText nodeAt
  rcases h.walk_cases (by decide : LastName.followLink ≠ .mayBeNew) cwd path with
    ⟨hnew, errno, hwalk, habsence⟩ | hsame
  · rw [hwalk]
    exact .inl ⟨hnew, _, rfl, habsence⟩
  · rw [hsame]
    cases hwalk : fs.walk cwd .followLink path with
    | error errno => exact .inr rfl
    | ok loc =>
      simp only [bind, Except.bind]
      cases hfound : fs.node? loc with
      | some node =>
        rw [hnode loc node (hsame.trans hwalk) hfound]
        exact .inr rfl
      | none =>
        cases hfound' : fs'.node? loc with
        | none => exact .inr rfl
        | some node => exact .inl ⟨⟨loc, hfound, node, hfound'⟩, _, rfl, rfl⟩

/-! ### Entries -/

/-- **A name in a directory stays there.** -/
theorem childNames_subset (h : Grows fs fs') (loc : Location) :
    fs.childNames loc ⊆ fs'.childNames loc := by
  intro name hname
  obtain ⟨node, hnode⟩ := exists_node_of_mem_childNames hname
  obtain ⟨node', hnode', -⟩ := h _ node hnode
  exact mem_childNames hnode'

theorem childNames_sublist (h : Grows fs fs') (loc : Location) :
    (fs.childNames loc).Sublist (fs'.childNames loc) :=
  have hnames := pairwise_childNames fs loc
  List.sublist_of_subperm_of_pairwise
    (List.subperm_of_subset hnames.nodup (h.childNames_subset loc)) hnames
    (pairwise_childNames fs' loc)

/-- The names in a directory are listed where it stands, and it stays where it is. -/
theorem list_cases (h : Grows fs fs') (cwd path : String) :
    (HasNew fs fs' ∧ ∃ fault, fs.list cwd path = .error fault ∧ fault.errno.isAbsence = true) ∨
      (∃ loc, fs.list cwd path = .ok (fs.childNames loc) ∧
        fs'.list cwd path = .ok (fs'.childNames loc)) ∨
      fs'.list cwd path = fs.list cwd path := by
  unfold list
  rcases h.walk_cases (by decide : LastName.followLink ≠ .mayBeNew) cwd path with
    ⟨hnew, errno, hwalk, habsence⟩ | hsame
  · rw [hwalk]
    exact .inl ⟨hnew, _, rfl, habsence⟩
  · rw [hsame]
    cases fs.walk cwd .followLink path with
    | error errno => exact .inr (.inr rfl)
    | ok loc =>
      simp only [asCall, bind, Except.bind]
      cases hnode : fs.node? loc with
      | none =>
        cases hnode' : fs'.node? loc with
        | none => exact .inr (.inr rfl)
        | some node => exact .inl ⟨⟨loc, hnode, node, hnode'⟩, _, rfl, rfl⟩
      | some node =>
        cases node with
        | directory locked =>
          rw [h.directory hnode]
          cases locked with
          | true => exact .inr (.inr rfl)
          | false => exact .inr (.inl ⟨loc, rfl, rfl⟩)
        | file =>
          obtain ⟨text, hnode'⟩ := h.file hnode
          rw [hnode']
          exact .inr (.inr rfl)
        | link =>
          rw [h.link hnode]
          exact .inr (.inr rfl)

/-- **The entries of a directory** are the names in it, and it stays where it is. -/
theorem entries_cases (h : Grows fs fs') (cwd path : String) :
    (HasNew fs fs' ∧ (fs.probe cwd).entries path = .ok []) ∨
      (∃ loc, (fs.probe cwd).entries path = .ok (fs.childNames loc) ∧
        (fs'.probe cwd).entries path = .ok (fs'.childNames loc)) ∨
      (fs'.probe cwd).entries path = (fs.probe cwd).entries path := by
  rw [probe_entries_eq_answerOf, probe_entries_eq_answerOf]
  by_cases hnul : '\x00' ∈ path.toList
  · exact .inr (.inr (by rw [answerOf_of_nul hnul, answerOf_of_nul hnul]))
  rcases h.list_cases cwd path with ⟨hnew, fault, hlist, habsence⟩ | ⟨loc, hlist, hlist'⟩ | hsame
  · rw [hlist]
    exact .inl ⟨hnew, answerOf_of_isAbsence hnul habsence⟩
  · rw [hlist, hlist']
    exact .inr (.inl ⟨loc, answerOf_ok hnul _, answerOf_ok hnul _⟩)
  · rw [hsame]
    exact .inr (.inr rfl)

end Grows

theorem pairwise_of_list {names : List String} (h : fs.list cwd path = .ok names) :
    names.Pairwise Text.NameLt := by
  obtain ⟨loc, -, h⟩ := bind_eq_ok_iff.1 h
  split at h
  · obtain rfl := Except.ok.inj h
    exact pairwise_childNames fs loc
  · cases h
  · cases h

/-- **Entries are in order**, and none is there twice. -/
theorem pairwise_of_entries {names : List String} (h : (fs.probe cwd).entries path = .ok names) :
    names.Pairwise Text.NameLt := by
  rw [probe_entries_eq_answerOf] at h
  obtain ⟨-, ⟨found, hlist, rfl⟩ | ⟨-, -, -, rfl⟩⟩ := answerOf_eq_ok_iff.1 h
  · exact pairwise_of_list hlist
  · exact .nil

/-- No entry is there twice. -/
theorem nodup_of_entries {names : List String} (h : (fs.probe cwd).entries path = .ok names) :
    names.Nodup :=
  (pairwise_of_entries h).nodup

namespace SameShape

theorem childNames_eq (h : SameShape fs fs') (loc : Location) :
    fs'.childNames loc = fs.childNames loc :=
  (pairwise_childNames fs' loc).eq_of_mem_iff (pairwise_childNames fs loc) fun _ ↦
    ⟨fun hname ↦ h.symm.grows.childNames_subset loc hname,
      fun hname ↦ h.grows.childNames_subset loc hname⟩

theorem isDirectory_eq (h : SameShape fs fs') (cwd path : String) :
    (fs'.probe cwd).isDirectory path = (fs.probe cwd).isDirectory path :=
  (h.grows.isDirectory_cases cwd path).resolve_left fun hlost ↦ h.not_hasNew hlost.1

theorem isFile_eq (h : SameShape fs fs') (cwd path : String) :
    (fs'.probe cwd).isFile path = (fs.probe cwd).isFile path :=
  (h.grows.isFile_cases cwd path).resolve_left fun hlost ↦ h.not_hasNew hlost.1

theorem realpath_eq (h : SameShape fs fs') (cwd path : String) :
    (fs'.probe cwd).realpath path = (fs.probe cwd).realpath path :=
  (h.grows.realpath_cases cwd path).resolve_left fun hlost ↦ h.not_hasNew hlost.1

theorem entries_eq (h : SameShape fs fs') (cwd path : String) :
    (fs'.probe cwd).entries path = (fs.probe cwd).entries path := by
  rcases h.grows.entries_cases cwd path with ⟨hnew, -⟩ | ⟨loc, hnames, hnames'⟩ | hsame
  · exact absurd hnew h.not_hasNew
  · rw [hnames, hnames', h.childNames_eq]
  · exact hsame

/-- Where the same stands, a path leads to the same. -/
theorem walk_eq (h : SameShape fs fs') (hlast : last ≠ .mayBeNew) (cwd path : String) :
    fs'.walk cwd last path = fs.walk cwd last path :=
  (h.grows.walk_cases hlast cwd path).resolve_left fun hlost ↦ h.not_hasNew hlost.1

end SameShape

end Probe

end ResourceLocator.FileSystem
