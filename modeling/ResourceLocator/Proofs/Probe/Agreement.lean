import ResourceLocator.Proofs.FileSystem.Answers

/-!
# Questions about one path

All questions about a path but that for the canonical one walk it, each by a call of its own. Where
the walk fails, all calls fail for the same reason, and so either nothing is there for any question
or each of them fails with the same code. Where the walk ends, what stands there decides the
answers, and a question fails only if something is locked or if the text of a directory is asked
for.

That these are all the cases rests on what a walk keeps: it goes on in directories alone, and all
that is above a directory it has come to are directories, so that neither a link nor `..` leads it
out of them (`HasDirectoriesTo.walkOn`). It ends at a directory, or at a file if that is where the
last name leads.
-/

namespace ResourceLocator

/-! ### Answers to all questions -/

/-- An answer is a failure with a code. -/
def FailsWith {α : Type} (code : String) (answer : Except Failure α) : Prop :=
  ∃ failure, answer = .error failure ∧ failure.code? = some code

namespace Probe

/-- All questions about a path fail with one code. -/
structure AllFail (probe : Probe (Except Failure)) (path code : String) : Prop where
  /-- The question whether it leads to a file. -/
  isFile : FailsWith code (probe.isFile path)
  /-- The question whether it leads to a directory. -/
  isDirectory : FailsWith code (probe.isDirectory path)
  /-- The question for the text. -/
  readText : FailsWith code (probe.readText path)
  /-- The question for the entries. -/
  entries : FailsWith code (probe.entries path)

/-- All questions about a path have the answer that nothing is there. -/
structure FindsNothing (probe : Probe (Except Failure)) (path : String) : Prop where
  /-- There is no file. -/
  isFile : probe.isFile path = .ok false
  /-- There is no directory. -/
  isDirectory : probe.isDirectory path = .ok false
  /-- There is no text. -/
  readText : probe.readText path = .ok none
  /-- There are no entries. -/
  entries : probe.entries path = .ok []

end Probe

section Answer

variable {α β : Type} {path : String} {view : Option α → β} {fault : CallFault}

theorem failsWith_answerOf_of_nul (h : '\x00' ∈ path.toList) (outcome : Except CallFault α) :
    FailsWith "ERR_INVALID_ARG_VALUE" (answerOf path outcome view) :=
  ⟨_, answerOf_of_nul h, rfl⟩

theorem failsWith_answerOf_fault (h : '\x00' ∉ path.toList)
    (hpresent : fault.errno.isAbsence = false) :
    FailsWith fault.errno.code (answerOf path (.error fault) view) :=
  ⟨_, answerOf_eq_error_iff.2 (.inr ⟨h, fault, rfl, hpresent, rfl⟩), rfl⟩

end Answer

namespace FileSystem

variable {fs : FileSystem} {cwd path text : String} {here loc : Location} {errno : Errno}
  {locked : Bool}

/-! ### Where the walk fails -/

theorem stat_of_walk_error (h : fs.walk cwd .followLink path = .error errno) :
    fs.stat cwd path = failing "stat" path errno := by
  rw [stat, nodeAt, h]
  rfl

theorem isFile_of_walk_error (h : fs.walk cwd .followLink path = .error errno) :
    (fs.probe cwd).isFile path = answerOf path (failing "stat" path errno) (·.any Node.isFile) := by
  rw [probe_isFile_eq_answerOf, stat_of_walk_error h]

theorem isDirectory_of_walk_error (h : fs.walk cwd .followLink path = .error errno) :
    (fs.probe cwd).isDirectory path =
      answerOf path (failing "stat" path errno) (·.any Node.isDirectory) := by
  rw [probe_isDirectory_eq_answerOf, stat_of_walk_error h]

theorem readText_of_walk_error (h : fs.walk cwd .followLink path = .error errno) :
    (fs.probe cwd).readText path = answerOf path (failing "open" path errno) id := by
  rw [probe_readText_eq_answerOf, readText, nodeAt, h]
  rfl

theorem entries_of_walk_error (h : fs.walk cwd .followLink path = .error errno) :
    (fs.probe cwd).entries path = answerOf path (failing "scandir" path errno) (·.getD []) := by
  rw [probe_entries_eq_answerOf, list, h]
  rfl

/-- **A path with a NUL character** makes all questions fail. -/
theorem allFail_of_nul (h : '\x00' ∈ path.toList) :
    (fs.probe cwd).AllFail path "ERR_INVALID_ARG_VALUE" where
  isFile := probe_isFile_eq_answerOf fs cwd path ▸ failsWith_answerOf_of_nul h _
  isDirectory := probe_isDirectory_eq_answerOf fs cwd path ▸ failsWith_answerOf_of_nul h _
  readText := probe_readText_eq_answerOf fs cwd path ▸ failsWith_answerOf_of_nul h _
  entries := probe_entries_eq_answerOf fs cwd path ▸ failsWith_answerOf_of_nul h _

/-- **Where nothing is**, all questions say so. -/
theorem findsNothing_of_walk (hnul : '\x00' ∉ path.toList)
    (h : fs.walk cwd .followLink path = .error errno) (habsence : errno.isAbsence = true) :
    (fs.probe cwd).FindsNothing path where
  isFile := (isFile_of_walk_error h).trans (answerOf_of_isAbsence hnul habsence)
  isDirectory := (isDirectory_of_walk_error h).trans (answerOf_of_isAbsence hnul habsence)
  readText := (readText_of_walk_error h).trans (answerOf_of_isAbsence hnul habsence)
  entries := (entries_of_walk_error h).trans (answerOf_of_isAbsence hnul habsence)

/-- **A walk that fails for another reason** makes all questions fail with its code. -/
theorem allFail_of_walk (hnul : '\x00' ∉ path.toList)
    (h : fs.walk cwd .followLink path = .error errno) (hpresent : errno.isAbsence = false) :
    (fs.probe cwd).AllFail path errno.code where
  isFile := isFile_of_walk_error h ▸ failsWith_answerOf_fault hnul hpresent
  isDirectory := isDirectory_of_walk_error h ▸ failsWith_answerOf_fault hnul hpresent
  readText := readText_of_walk_error h ▸ failsWith_answerOf_fault hnul hpresent
  entries := entries_of_walk_error h ▸ failsWith_answerOf_fault hnul hpresent

/-! ### Where the walk ends -/

/-- **The text of a file** can be read unless the file is locked. -/
theorem readText_of_file (hnul : '\x00' ∉ path.toList)
    (hwalk : fs.walk cwd .followLink path = .ok loc)
    (hnode : fs.node? loc = some (.file text locked)) :
    if locked then FailsWith "EACCES" ((fs.probe cwd).readText path)
    else (fs.probe cwd).readText path = .ok (some text) := by
  have hopen : fs.nodeAt cwd .followLink path = .ok (.file text locked) :=
    nodeAt_eq_ok_iff.2 ⟨loc, hwalk, hnode⟩
  rw [probe_readText_eq_answerOf, readText, hopen]
  cases locked with
  | true => exact failsWith_answerOf_fault hnul rfl
  | false => exact answerOf_ok hnul text

example :
    let probe := (FileSystem.empty.set ["f"] (.file "text" true)).probe "/"
    probe.isFile "/f" = .ok true ∧ probe.entries "/f" = .ok [] ∧ probe.readText "/f/" = .ok none ∧
      probe.readText "/f" = .error (.call ⟨.denied, "open", some "/f"⟩) := by
  refine ⟨?_, ?_, ?_, ?_⟩ <;> cbv

/-- **A directory has no text**, and to open one that is locked fails before that is seen. -/
theorem readText_of_directory (hnul : '\x00' ∉ path.toList)
    (hwalk : fs.walk cwd .followLink path = .ok loc)
    (hnode : fs.node? loc = some (.directory locked)) :
    FailsWith (if locked then "EACCES" else "EISDIR") ((fs.probe cwd).readText path) := by
  have hopen : fs.nodeAt cwd .followLink path = .ok (.directory locked) :=
    nodeAt_eq_ok_iff.2 ⟨loc, hwalk, hnode⟩
  rw [probe_readText_eq_answerOf, readText, hopen]
  cases locked with
  | true => exact failsWith_answerOf_fault hnul rfl
  | false => exact failsWith_answerOf_fault hnul rfl

/-- **A file has no entries**, whether or not it is locked. -/
theorem entries_of_file (hnul : '\x00' ∉ path.toList)
    (hwalk : fs.walk cwd .followLink path = .ok loc)
    (hnode : fs.node? loc = some (.file text locked)) : (fs.probe cwd).entries path = .ok [] := by
  have hlist : fs.list cwd path = failing "scandir" path .notDirectory := by
    rw [list, hwalk]
    simp only [asCall, bind, Except.bind, hnode]
  rw [probe_entries_eq_answerOf, hlist]
  exact answerOf_of_isAbsence hnul rfl

/-- **The entries of a directory** are the names in it, unless it is locked. -/
theorem entries_of_directory (hnul : '\x00' ∉ path.toList)
    (hwalk : fs.walk cwd .followLink path = .ok loc)
    (hnode : fs.node? loc = some (.directory locked)) :
    if locked then FailsWith "EACCES" ((fs.probe cwd).entries path)
    else (fs.probe cwd).entries path = .ok (fs.childNames loc) := by
  rw [probe_entries_eq_answerOf, list, hwalk]
  simp only [asCall, bind, Except.bind, hnode]
  cases locked with
  | true => exact failsWith_answerOf_fault hnul rfl
  | false => exact answerOf_ok hnul (fs.childNames loc)

theorem mem_childNames_iff {name : String} :
    name ∈ fs.childNames loc ↔ ∃ node, fs.node? (loc ++ [name]) = some node :=
  ⟨exists_node_of_mem_childNames, fun ⟨_, hnode⟩ ↦ mem_childNames hnode⟩

/-! ### Where a walk can end -/

/-- There are directories on all the way to a location, and there. -/
def HasDirectoriesTo (fs : FileSystem) (loc : Location) : Prop :=
  ∀ above, above <+: loc → fs.isDirectoryAt above = true

theorem isDirectoryAt_iff :
    fs.isDirectoryAt loc = true ↔ ∃ locked, fs.node? loc = some (.directory locked) := by
  unfold isDirectoryAt
  split <;> simp_all

namespace HasDirectoriesTo

theorem of_isPrefix {above : Location} (h : fs.HasDirectoriesTo loc) (habove : above <+: loc) :
    fs.HasDirectoriesTo above :=
  fun _ hbefore ↦ h _ (hbefore.trans habove)

theorem concat {name : String} (h : fs.HasDirectoriesTo loc)
    (hnext : fs.node? (loc ++ [name]) = some (.directory locked)) :
    fs.HasDirectoriesTo (loc ++ [name]) := by
  intro above habove
  rcases List.prefix_concat_iff.1 habove with rfl | habove
  · exact isDirectoryAt_iff.2 ⟨locked, hnext⟩
  · exact h above habove

/-- **A walk ends at a directory or at a file.** The invariant is that there are directories on all
the way to where it has come: a link leads on from there or from the root, and `..` leads up the
way. -/
theorem walkOn {links rest : Nat} {names : List String} (h : fs.HasDirectoriesTo here)
    (hwalk : fs.walkOn .followLink links here names = .ok (loc, rest)) :
    (∃ locked, fs.node? loc = some (.directory locked)) ∨
      ∃ text locked, fs.node? loc = some (.file text locked) := by
  fun_induction FileSystem.walkOn fs .followLink links here names with
  | case1 links here =>
    obtain ⟨rfl, -⟩ := Prod.mk.inj (Except.ok.inj hwalk)
    exact .inl (isDirectoryAt_iff.1 (h here List.prefix_rfl))
  | case3 links here names _ _ _ ih => exact ih h hwalk
  | case4 links here names _ _ _ _ ih => exact ih (h.of_isPrefix (List.dropLast_prefix here)) hwalk
  | case10 here name names _ _ _ _ _ _ next target _ _ links ih =>
    refine ih ?_ hwalk
    split
    · exact h.of_isPrefix List.nil_prefix
    · exact h
  | case11 links here name names _ _ _ _ _ _ next node hlink hnext ih =>
    cases node with
    | directory locked => exact ih (h.concat hnext) hwalk
    | file text locked =>
      rw [eq_of_walkOn_of_file hnext hwalk]
      exact .inr ⟨text, locked, hnext⟩
    | link target => exact absurd rfl (hlink target)
  | case6 _ _ _ _ _ _ _ _ _ _ _ _ hnew => exact absurd hnew.2 (by decide)
  | case8 _ _ _ _ _ _ _ _ _ _ _ _ _ hkeep => exact absurd hkeep.2 (by decide)
  | case2 | case5 | case7 | case9 | case12 => cases hwalk

/-- **A path whose walk ends leads to a file or to a directory.** -/
theorem isFile_or_isDirectory (h : fs.HasDirectoriesTo (startOf cwd path))
    (hnul : '\x00' ∉ path.toList) (hwalk : fs.walk cwd .followLink path = .ok loc) :
    (fs.probe cwd).isFile path = .ok true ∨ (fs.probe cwd).isDirectory path = .ok true := by
  obtain ⟨-, -, rest, hrun⟩ := exists_walkOn_of_walk hwalk
  rcases h.walkOn hrun with ⟨locked, hnode⟩ | ⟨text, locked, hnode⟩
  · exact .inr (isDirectory_eq_true_iff.2 ⟨hnul, locked, stat_eq_ok_iff.2 ⟨loc, hwalk, hnode⟩⟩)
  · exact .inl (isFile_eq_true_iff.2 ⟨hnul, text, locked, stat_eq_ok_iff.2 ⟨loc, hwalk, hnode⟩⟩)

end HasDirectoriesTo

/-! ### Agreement -/

theorem isFile_eq_error_iff {failure : Failure} : (fs.probe cwd).isFile path = .error failure ↔
    (fs.probe cwd).isDirectory path = .error failure := by
  rw [probe_isFile_eq_answerOf, probe_isDirectory_eq_answerOf, answerOf_eq_error_iff,
    answerOf_eq_error_iff]

/-- No path leads both to a file and to a directory. -/
theorem not_isFile_and_isDirectory (fs : FileSystem) (cwd path : String) :
    ¬((fs.probe cwd).isFile path = .ok true ∧ (fs.probe cwd).isDirectory path = .ok true) := by
  rintro ⟨hfile, hdir⟩
  obtain ⟨-, text, locked, hstat⟩ := isFile_eq_true_iff.1 hfile
  obtain ⟨-, locked', hstat'⟩ := isDirectory_eq_true_iff.1 hdir
  cases hstat.symm.trans hstat'

/-- **The questions about a path agree.** Whether it leads to a file and whether it leads to a
directory are never both answered with yes, and the two questions fail alike. If the path has a NUL
character, or if the walk along it fails for another reason than that nothing is there, then all
questions fail with one code; if nothing is there, all of them say so. A file has its text, unless
it is locked, and no entries; a directory has no text, and its entries are the names in it, unless
it is locked. Entries are in the order of their units, each there once. And this is all that can be:
if there are directories on all the way to where the walk starts, and it does not fail, then it ends
at a file or a directory. -/
theorem questions_agree (fs : FileSystem) (cwd path : String) :
    let probe := fs.probe cwd
    (∀ failure, probe.isFile path = .error failure ↔ probe.isDirectory path = .error failure) ∧
    ¬(probe.isFile path = .ok true ∧ probe.isDirectory path = .ok true) ∧
    ('\x00' ∈ path.toList → probe.AllFail path "ERR_INVALID_ARG_VALUE") ∧
    ('\x00' ∉ path.toList → ∀ errno, fs.walk cwd .followLink path = .error errno →
      if errno.code = "ENOENT" ∨ errno.code = "ENOTDIR" then probe.FindsNothing path
      else probe.AllFail path errno.code) ∧
    (probe.isFile path = .ok true → ∃ loc text locked,
      fs.walk cwd .followLink path = .ok loc ∧ fs.node? loc = some (.file text locked) ∧
      (if locked then FailsWith "EACCES" (probe.readText path)
        else probe.readText path = .ok (some text)) ∧
      probe.entries path = .ok []) ∧
    (probe.isDirectory path = .ok true → ∃ loc locked,
      fs.walk cwd .followLink path = .ok loc ∧ fs.node? loc = some (.directory locked) ∧
      FailsWith (if locked then "EACCES" else "EISDIR") (probe.readText path) ∧
      if locked then FailsWith "EACCES" (probe.entries path)
        else ∃ names, probe.entries path = .ok names ∧
          ∀ name, name ∈ names ↔ ∃ node, fs.node? (loc ++ [name]) = some node) ∧
    (∀ names, probe.entries path = .ok names → names.Pairwise Text.NameLt) ∧
    (fs.HasDirectoriesTo (startOf cwd path) → '\x00' ∉ path.toList →
      ∀ loc, fs.walk cwd .followLink path = .ok loc →
        probe.isFile path = .ok true ∨ probe.isDirectory path = .ok true) := by
  intro probe
  refine ⟨fun _ ↦ isFile_eq_error_iff, not_isFile_and_isDirectory fs cwd path, allFail_of_nul,
    fun hnul errno hwalk ↦ ?_, fun hfile ↦ ?_, fun hdir ↦ ?_, fun _ ↦ pairwise_of_entries,
    fun hstart hnul _ hwalk ↦ hstart.isFile_or_isDirectory hnul hwalk⟩
  · split
    · next habsence => exact findsNothing_of_walk hnul hwalk (Errno.isAbsence_iff.2 habsence)
    · next hpresent =>
      exact allFail_of_walk hnul hwalk (Bool.of_not_eq_true (mt Errno.isAbsence_iff.1 hpresent))
  · obtain ⟨hnul, text, locked, hstat⟩ := isFile_eq_true_iff.1 hfile
    obtain ⟨loc, hwalk, hnode⟩ := stat_eq_ok_iff.1 hstat
    exact ⟨loc, text, locked, hwalk, hnode, readText_of_file hnul hwalk hnode,
      entries_of_file hnul hwalk hnode⟩
  · obtain ⟨hnul, locked, hstat⟩ := isDirectory_eq_true_iff.1 hdir
    obtain ⟨loc, hwalk, hnode⟩ := stat_eq_ok_iff.1 hstat
    refine ⟨loc, locked, hwalk, hnode, readText_of_directory hnul hwalk hnode, ?_⟩
    have hentries := entries_of_directory hnul hwalk hnode
    cases locked with
    | true => exact hentries
    | false => exact ⟨fs.childNames loc, hentries, fun _ ↦ mem_childNames_iff⟩

end FileSystem

end ResourceLocator
