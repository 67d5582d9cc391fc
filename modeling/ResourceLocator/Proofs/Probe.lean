import ResourceLocator.Probe
import ResourceLocator.Proofs.Except

/-!
# Questions to the file system

The answer of a probe, from what one call about the path comes to. A path with a NUL character is
refused before any call. Otherwise the question has an answer if the call has one, or if it fails
because nothing is there; any other fault of the call is handed on. All questions but that for the
canonical path are of this form (`answerOf`), so that what a question comes to is said once.
Whatever is asked, a failure is of the general kind and can be put into words (`Failure.IsGeneral`).
-/

namespace ResourceLocator

variable {fs : FileSystem} {cwd path : String}

/-! ### Answers -/

theorem Errno.isAbsence_iff {errno : Errno} :
    errno.isAbsence = true ↔ errno.code = "ENOENT" ∨ errno.code = "ENOTDIR" := by
  cases errno <;> decide

theorem guardPath_of_nul (h : '\x00' ∈ path.toList) : guardPath path = .error (.nulPath path) :=
  if_pos (by simpa using h)

theorem guardPath_of_not_nul (h : '\x00' ∉ path.toList) : guardPath path = .ok () :=
  if_neg (by simpa using h)

/-- A question about a path that is put to the file system by one call: the answer is what is seen
in the outcome of the call, `none` if nothing is there. -/
def answerOf {α β : Type} (path : String) (outcome : Except CallFault α) (view : Option α → β) :
    Except Failure β := do
  guardPath path
  return view (← present? outcome)

section Answer

variable {α β : Type} {outcome : Except CallFault α} {view : Option α → β}

theorem answerOf_of_nul (h : '\x00' ∈ path.toList) :
    answerOf path outcome view = .error (.nulPath path) := by
  rw [answerOf, guardPath_of_nul h]
  rfl

theorem answerOf_ok (h : '\x00' ∉ path.toList) (a : α) :
    answerOf path (.ok a) view = .ok (view (some a)) := by
  rw [answerOf, guardPath_of_not_nul h]
  rfl

theorem answerOf_fault (h : '\x00' ∉ path.toList) (fault : CallFault) :
    answerOf path (.error fault) view =
      if fault.errno.isAbsence then .ok (view none) else .error (.call fault) := by
  rw [answerOf, guardPath_of_not_nul h, present?]
  cases fault.errno.isAbsence <;> rfl

/-- **A question has an answer** if the call has one, or if nothing is there. -/
theorem answerOf_eq_ok_iff {b : β} : answerOf path outcome view = .ok b ↔
    '\x00' ∉ path.toList ∧ ((∃ a, outcome = .ok a ∧ view (some a) = b) ∨
      ∃ fault, outcome = .error fault ∧ fault.errno.isAbsence = true ∧ view none = b) := by
  by_cases hnul : '\x00' ∈ path.toList
  · simp [answerOf_of_nul hnul, hnul]
  · cases outcome with
    | ok a => simp [answerOf_ok hnul, hnul]
    | error fault =>
      rw [answerOf_fault hnul]
      cases hfault : fault.errno.isAbsence <;> simp [hnul, hfault]

theorem answerOf_of_isAbsence (h : '\x00' ∉ path.toList) {fault : CallFault}
    (habsence : fault.errno.isAbsence = true) :
    answerOf path (.error fault) view = .ok (view none) :=
  answerOf_eq_ok_iff.2 ⟨h, .inr ⟨fault, rfl, habsence, rfl⟩⟩

/-- **A question fails** if its path has a NUL character, or if the call fails for another reason
than that nothing is there. What is to be seen in the outcome is no matter. -/
theorem answerOf_eq_error_iff {failure : Failure} : answerOf path outcome view = .error failure ↔
    ('\x00' ∈ path.toList ∧ .nulPath path = failure) ∨ ('\x00' ∉ path.toList ∧
      ∃ fault, outcome = .error fault ∧ fault.errno.isAbsence = false ∧ .call fault = failure) := by
  by_cases hnul : '\x00' ∈ path.toList
  · simp [answerOf_of_nul hnul, hnul]
  · cases outcome with
    | ok a => simp [answerOf_ok hnul, hnul]
    | error fault =>
      rw [answerOf_fault hnul]
      cases hfault : fault.errno.isAbsence <;> simp [hnul, hfault]

/-- A question about a path has no answer: the path has a NUL character, or the call fails with
another code than those for nothing being there. -/
def Unanswered (path : String) (outcome : Except CallFault α) : Prop :=
  '\x00' ∈ path.toList ∨ ∃ fault, outcome = .error fault ∧
    fault.errno.code ≠ "ENOENT" ∧ fault.errno.code ≠ "ENOTDIR"

theorem exists_answerOf_eq_error_iff :
    (∃ failure, answerOf path outcome view = .error failure) ↔ Unanswered path outcome := by
  simp only [Unanswered, answerOf_eq_error_iff, ← not_or, ← Errno.isAbsence_iff, Bool.not_eq_true]
  constructor
  · rintro ⟨failure, ⟨hnul, -⟩ | ⟨-, fault, hfault, hpresent, -⟩⟩
    · exact .inl hnul
    · exact .inr ⟨fault, hfault, hpresent⟩
  · intro h
    by_cases hnul : '\x00' ∈ path.toList
    · exact ⟨_, .inl ⟨hnul, rfl⟩⟩
    · obtain ⟨fault, hfault, hpresent⟩ := h.resolve_left hnul
      exact ⟨_, .inr ⟨hnul, fault, hfault, hpresent, rfl⟩⟩

/-- A question whether something is of a kind has the answer yes if it is there and of that kind. -/
theorem answerOf_any_eq_true_iff {isOfKind : α → Bool} :
    answerOf path outcome (·.any isOfKind) = .ok true ↔
      '\x00' ∉ path.toList ∧ ∃ a, outcome = .ok a ∧ isOfKind a = true := by
  simp [answerOf_eq_ok_iff]

/-- Such a question is about no more than the kind. -/
theorem answerOf_any_map {γ : Type} {f : α → γ} {isOfKind : γ → Bool} :
    answerOf path (outcome.map f) (·.any isOfKind) =
      answerOf path outcome (·.any fun a ↦ isOfKind (f a)) := by
  cases outcome with
  | ok a => rfl
  | error fault =>
    simp only [answerOf, present?, Except.map]
    cases fault.errno.isAbsence <;> rfl

end Answer

/-- Whether a node is a directory. -/
def Node.isDirectory : Node → Bool
  | .directory _ => true
  | _ => false

theorem Node.isDirectory_iff {node : Node} :
    node.isDirectory = true ↔ ∃ locked, node = .directory locked := by
  cases node <;> simp [Node.isDirectory]

/-- Whether a node is a file. -/
def Node.isFile : Node → Bool
  | .file _ _ => true
  | _ => false

theorem Node.isFile_iff {node : Node} :
    node.isFile = true ↔ ∃ text locked, node = .file text locked := by
  cases node <;> simp [Node.isFile]

namespace FileSystem

theorem probe_isDirectory_eq_answerOf (fs : FileSystem) (cwd path : String) :
    (fs.probe cwd).isDirectory path =
      answerOf path (fs.stat cwd path) (·.any Node.isDirectory) := by
  simp only [probe, stat?, answerOf, bind_assoc]
  refine bind_congr fun _ ↦ bind_congr fun found ↦ ?_
  rcases found with - | ⟨_ | _ | _⟩ <;> rfl

theorem probe_isFile_eq_answerOf (fs : FileSystem) (cwd path : String) :
    (fs.probe cwd).isFile path = answerOf path (fs.stat cwd path) (·.any Node.isFile) := by
  simp only [probe, stat?, answerOf, bind_assoc]
  refine bind_congr fun _ ↦ bind_congr fun found ↦ ?_
  rcases found with - | ⟨_ | _ | _⟩ <;> rfl

theorem probe_readText_eq_answerOf (fs : FileSystem) (cwd path : String) :
    (fs.probe cwd).readText path = answerOf path (fs.readText cwd path) id := by
  simp only [probe, answerOf, id_eq, bind_pure]

theorem probe_entries_eq_answerOf (fs : FileSystem) (cwd path : String) :
    (fs.probe cwd).entries path = answerOf path (fs.list cwd path) (·.getD []) := rfl

end FileSystem

/-! ### Failures -/

/-- A failure of no particular kind: a call on the file system fails, or a path or a name is
refused. -/
inductive Failure.IsGeneral : Failure → Prop where
  /-- A call fails. -/
  | call (fault : CallFault) : IsGeneral (.call fault)
  /-- A path has a NUL character. -/
  | nulPath (path : String) : IsGeneral (.nulPath path)
  /-- A name does not stay inside its directory. -/
  | resourceName (name : String) : IsGeneral (.resourceName name)

namespace Failure.IsGeneral

variable {failure : Failure}

theorem exitCode_eq (h : failure.IsGeneral) : failure.exitCode = 1 := by cases h <;> rfl

/-- **Such a failure has a message.** -/
theorem exists_message (h : failure.IsGeneral) : ∃ reason, failure.message = .ok reason := by
  cases h <;> exact ⟨_, rfl⟩

end Failure.IsGeneral

section Failures

variable {failure : Failure}

theorem isGeneral_of_guardPath (h : guardPath path = .error failure) : failure.IsGeneral := by
  unfold guardPath at h
  split at h
  · obtain rfl := Except.error.inj h
    exact .nulPath path
  · cases h

theorem isGeneral_of_answerOf {α β : Type} {outcome : Except CallFault α} {view : Option α → β}
    (h : answerOf path outcome view = .error failure) : failure.IsGeneral := by
  obtain ⟨-, rfl⟩ | ⟨-, fault, -, -, rfl⟩ := answerOf_eq_error_iff.1 h
  · exact .nulPath path
  · exact .call fault

namespace FileSystem

theorem isGeneral_of_isDirectory (h : (fs.probe cwd).isDirectory path = .error failure) :
    failure.IsGeneral :=
  isGeneral_of_answerOf ((probe_isDirectory_eq_answerOf fs cwd path).symm.trans h)

/-- **A failed question has a message.** -/
theorem exists_message_of_isDirectory (h : (fs.probe cwd).isDirectory path = .error failure) :
    ∃ reason, failure.message = .ok reason :=
  (isGeneral_of_isDirectory h).exists_message

theorem isGeneral_of_isFile (h : (fs.probe cwd).isFile path = .error failure) :
    failure.IsGeneral :=
  isGeneral_of_answerOf ((probe_isFile_eq_answerOf fs cwd path).symm.trans h)

theorem isGeneral_of_readText (h : (fs.probe cwd).readText path = .error failure) :
    failure.IsGeneral :=
  isGeneral_of_answerOf ((probe_readText_eq_answerOf fs cwd path).symm.trans h)

theorem isGeneral_of_entries (h : (fs.probe cwd).entries path = .error failure) :
    failure.IsGeneral :=
  isGeneral_of_answerOf ((probe_entries_eq_answerOf fs cwd path).symm.trans h)

theorem isGeneral_of_realpath (h : (fs.probe cwd).realpath path = .error failure) :
    failure.IsGeneral := by
  rcases bind_eq_error_iff.1 h with h | ⟨_, -, h⟩
  · exact isGeneral_of_guardPath h
  · cases hreal : fs.realpath cwd path with
    | ok canonical =>
      rw [hreal] at h
      cases h
    | error fault =>
      rw [hreal] at h
      obtain rfl := Except.error.inj h
      exact .call fault

end FileSystem

end Failures

namespace FileSystem

/-! ### Files and entries -/

/-- **A path leads to a file** if examining it shows a file. -/
theorem isFile_eq_true_iff : (fs.probe cwd).isFile path = .ok true ↔
    '\x00' ∉ path.toList ∧ ∃ text locked, fs.stat cwd path = .ok (.file text locked) := by
  simp only [probe_isFile_eq_answerOf, answerOf_any_eq_true_iff, Node.isFile_iff]
  refine and_congr_right fun _ ↦ ⟨?_, fun ⟨text, locked, hstat⟩ ↦ ⟨_, hstat, text, locked, rfl⟩⟩
  rintro ⟨_, hstat, text, locked, rfl⟩
  exact ⟨text, locked, hstat⟩

theorem exists_isFile_eq_error_iff : (∃ failure, (fs.probe cwd).isFile path = .error failure) ↔
    Unanswered path (fs.stat cwd path) := by
  simp only [probe_isFile_eq_answerOf, exists_answerOf_eq_error_iff]

/-- A path leads to no file if there is an answer, and examining it does not show a file. -/
theorem isFile_eq_false_iff : (fs.probe cwd).isFile path = .ok false ↔
    ¬Unanswered path (fs.stat cwd path) ∧
      ∀ text locked, fs.stat cwd path ≠ .ok (.file text locked) := by
  rw [← exists_isFile_eq_error_iff]
  constructor
  · intro h
    have hanswered : ¬∃ failure, (fs.probe cwd).isFile path = .error failure := by simp [h]
    refine ⟨hanswered, fun text locked hstat ↦ ?_⟩
    have hnul : '\x00' ∉ path.toList := fun hnul ↦
      hanswered (exists_isFile_eq_error_iff.2 (.inl hnul))
    have hfile := isFile_eq_true_iff.2 ⟨hnul, text, locked, hstat⟩
    cases h.symm.trans hfile
  · rintro ⟨hanswered, hother⟩
    cases hanswer : (fs.probe cwd).isFile path with
    | error failure => exact absurd ⟨failure, hanswer⟩ hanswered
    | ok answer =>
      cases answer with
      | false => rfl
      | true =>
        obtain ⟨-, text, locked, hstat⟩ := isFile_eq_true_iff.1 hanswer
        exact absurd hstat (hother text locked)

/-- **A path leads to a directory** if examining it shows a directory. -/
theorem isDirectory_eq_true_iff : (fs.probe cwd).isDirectory path = .ok true ↔
    '\x00' ∉ path.toList ∧ ∃ locked, fs.stat cwd path = .ok (.directory locked) := by
  simp only [probe_isDirectory_eq_answerOf, answerOf_any_eq_true_iff, Node.isDirectory_iff]
  refine and_congr_right fun _ ↦ ⟨?_, fun ⟨locked, hstat⟩ ↦ ⟨_, hstat, locked, rfl⟩⟩
  rintro ⟨_, hstat, locked, rfl⟩
  exact ⟨locked, hstat⟩

theorem exists_stat_of_isFile (h : (fs.probe cwd).isFile path = .ok true) :
    ∃ text locked, fs.stat cwd path = .ok (.file text locked) :=
  (isFile_eq_true_iff.1 h).2

/-- The empty path has no entries. -/
theorem entries_empty (fs : FileSystem) (cwd : String) : (fs.probe cwd).entries "" = .ok [] := rfl

/-- Entries are the names in a directory, unless there is none. -/
theorem list_of_entries {names : List String} (h : (fs.probe cwd).entries path = .ok names) :
    fs.list cwd path = .ok names ∨
      ∃ fault, fs.list cwd path = .error fault ∧ fault.errno.isAbsence = true := by
  rw [probe_entries_eq_answerOf] at h
  obtain ⟨-, ⟨found, hlist, hnames⟩ | ⟨fault, hlist, habsence, -⟩⟩ := answerOf_eq_ok_iff.1 h
  · exact .inl (hlist.trans (congrArg Except.ok hnames))
  · exact .inr ⟨fault, hlist, habsence⟩

/-! ### Paths to a directory -/

/-- Whether a path leads to a directory; a question that fails counts as no. -/
def leadsToDirectory (fs : FileSystem) (cwd path : String) : Bool :=
  match (fs.probe cwd).isDirectory path with
  | .ok isDirectory => isDirectory
  | .error _ => false

theorem leadsToDirectory_iff : fs.leadsToDirectory cwd path = true ↔
    '\x00' ∉ path.toList ∧ ∃ locked, fs.stat cwd path = .ok (.directory locked) := by
  rw [← isDirectory_eq_true_iff, leadsToDirectory]
  cases (fs.probe cwd).isDirectory path <;> simp

end FileSystem

end ResourceLocator
