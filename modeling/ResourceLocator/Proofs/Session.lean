import ResourceLocator.Proofs.Probe
import ResourceLocator.Session

/-!
# Runs of sessions

What a run of a session comes to, one equation for each way of building a session. A run of a
sequence is taken apart by how its first part ends (`runIn_bind_of_ok`, `runIn_bind_of_error`), so
that a run of a whole program is read from the first part to the last.

A question to the file system leaves the world as it is, whatever the answer. How a session can fail
is read off its parts too (`FailsOnly`): a sequence fails as one of its parts does.

A `Counted` session keeps, beside the world, how often one capability has been called. Everything
else is made part of it by `Counted.quiet`, which commutes with all ways of building a session, so
that counting changes nothing but the count.
-/

namespace ResourceLocator

section Sequence

variable {σ α β : Type} {s t : σ} {a : α} {failure : Failure}
  {computation : ExceptT Failure (StateM σ) α}

/-- Whatever the state is, a sequence goes on from where its first part ends. -/
theorem bind_apply_of_ok (h : computation s = (.ok a, t))
    (next : α → ExceptT Failure (StateM σ) β) : (computation >>= next) s = next a t := by
  simp only [bind, ExceptT.bind, ExceptT.mk, StateT.bind, h]
  rfl

/-- Whatever the state is, a sequence ends where its first part fails. -/
theorem bind_apply_of_error (h : computation s = (.error failure, t))
    (next : α → ExceptT Failure (StateM σ) β) :
    (computation >>= next) s = (.error failure, t) := by
  simp only [bind, ExceptT.bind, ExceptT.mk, StateT.bind, h]
  rfl

end Sequence

namespace Session

variable {α β : Type} {w after : World} {a : α} {failure : Failure}

/-! ### The parts of a session -/

@[simp]
theorem runIn_pure (a : α) (w : World) : runIn (pure a) w = (.ok a, w) := rfl

@[simp]
theorem runIn_throw (failure : Failure) (w : World) :
    runIn (throw failure : Session α) w = (.error failure, w) := rfl

@[simp]
theorem runIn_get (w : World) : runIn get w = (.ok w, w) := rfl

@[simp]
theorem runIn_modify (f : World → World) (w : World) : runIn (modify f) w = (.ok (), f w) := rfl

@[simp]
theorem runIn_set (after w : World) : runIn (set after) w = (.ok (), after) := rfl

@[simp]
theorem runIn_printError (text : String) (w : World) :
    runIn (printError text) w =
      (.ok (), { w with effects.errors := w.effects.errors ++ text }) := rfl

@[simp]
theorem runIn_ofExcept (outcome : Except Failure α) (w : World) :
    runIn (ofExcept outcome) w = (outcome, w) := by
  cases outcome <;> rfl

/-! ### Sequences and recovery -/

theorem runIn_bind (session : Session α) (next : α → Session β) (w : World) :
    runIn (session >>= next) w = match runIn session w with
      | (.ok a, after) => runIn (next a) after
      | (.error failure, after) => (.error failure, after) := by
  rcases h : runIn session w with ⟨outcome, after⟩
  cases outcome with
  | ok a => exact bind_apply_of_ok h next
  | error failure => exact bind_apply_of_error h next

/-- A sequence goes on with the answer of its first part, in the world that this leaves. -/
theorem runIn_bind_of_ok {session : Session α} (h : runIn session w = (.ok a, after))
    (next : α → Session β) : runIn (session >>= next) w = runIn (next a) after := by
  rw [runIn_bind, h]

/-- A sequence ends with the failure of its first part. -/
theorem runIn_bind_of_error {session : Session α} (h : runIn session w = (.error failure, after))
    (next : α → Session β) : runIn (session >>= next) w = (.error failure, after) := by
  rw [runIn_bind, h]

/-- **A sequence that ends well is two parts that do.** -/
theorem exists_of_runIn_bind_eq_ok {session : Session α} {next : α → Session β} {b : β}
    (h : runIn (session >>= next) w = (.ok b, after)) :
    ∃ a mid, runIn session w = (.ok a, mid) ∧ runIn (next a) mid = (.ok b, after) := by
  rcases hrun : runIn session w with ⟨outcome, mid⟩
  cases outcome with
  | ok a =>
    rw [runIn_bind_of_ok hrun] at h
    exact ⟨a, mid, rfl, h⟩
  | error failure =>
    rw [runIn_bind_of_error hrun] at h
    cases h

theorem runIn_tryCatch_of_ok {session : Session α} (h : runIn session w = (.ok a, after))
    (recover : Failure → Session α) : runIn (tryCatch session recover) w = (.ok a, after) := by
  have hrun : session w = (.ok a, after) := h
  simp only [runIn, tryCatch, tryCatchThe, MonadExceptOf.tryCatch, ExceptT.tryCatch, ExceptT.mk,
    ExceptT.run, StateT.run, bind, StateT.bind, hrun]
  rfl

/-- What is thrown does not undo what has been done before. -/
theorem runIn_tryCatch_of_error {session : Session α}
    (h : runIn session w = (.error failure, after)) (recover : Failure → Session α) :
    runIn (tryCatch session recover) w = runIn (recover failure) after := by
  have hrun : session w = (.error failure, after) := h
  simp only [runIn, tryCatch, tryCatchThe, MonadExceptOf.tryCatch, ExceptT.tryCatch, ExceptT.mk,
    ExceptT.run, StateT.run, bind, StateT.bind, hrun]

/-- What is recovered from is how a session ends, and nothing else of it. -/
theorem runIn_tryCatch_congr {session session' : Session α} {w' : World}
    (h : runIn session w = runIn session' w') (recover : Failure → Session α) :
    runIn (tryCatch session recover) w = runIn (tryCatch session' recover) w' := by
  rcases hrun : runIn session w with ⟨outcome, after⟩
  have hrun' := h.symm.trans hrun
  cases outcome with
  | ok a => rw [runIn_tryCatch_of_ok hrun, runIn_tryCatch_of_ok hrun']
  | error failure => rw [runIn_tryCatch_of_error hrun, runIn_tryCatch_of_error hrun']

/-! ### Questions to the file system -/

@[simp]
theorem runIn_probe_realpath (path : String) (w : World) :
    runIn (probe.realpath path) w = ((w.disk.probe w.cwd).realpath path, w) := by
  rw [probe, runIn_bind_of_ok (runIn_get w), runIn_ofExcept]

@[simp]
theorem runIn_probe_isDirectory (path : String) (w : World) :
    runIn (probe.isDirectory path) w = ((w.disk.probe w.cwd).isDirectory path, w) := by
  rw [probe, runIn_bind_of_ok (runIn_get w), runIn_ofExcept]

@[simp]
theorem runIn_probe_readText (path : String) (w : World) :
    runIn (probe.readText path) w = ((w.disk.probe w.cwd).readText path, w) := by
  rw [probe, runIn_bind_of_ok (runIn_get w), runIn_ofExcept]

@[simp]
theorem runIn_probe_isFile (path : String) (w : World) :
    runIn (probe.isFile path) w = ((w.disk.probe w.cwd).isFile path, w) := by
  rw [probe, runIn_bind_of_ok (runIn_get w), runIn_ofExcept]

@[simp]
theorem runIn_probe_entries (path : String) (w : World) :
    runIn (probe.entries path) w = ((w.disk.probe w.cwd).entries path, w) := by
  rw [probe, runIn_bind_of_ok (runIn_get w), runIn_ofExcept]

/-- **Questions in a sequence** are answered like those to the disk of the session. -/
theorem runIn_bind_of_question {session : Session α} {next : α → Session β}
    {outcome : Except Failure α} {answer : α → Except Failure β}
    (h : runIn session w = (outcome, w)) (hnext : ∀ a, runIn (next a) w = (answer a, w)) :
    runIn (session >>= next) w = (outcome >>= answer, w) := by
  cases outcome with
  | ok a => exact (runIn_bind_of_ok h next).trans (hnext a)
  | error failure => exact runIn_bind_of_error h next

/-! ### Sessions that change nothing -/

/-- A session that leaves every world as it is. -/
def IsQuestion (session : Session α) : Prop := ∀ w, (runIn session w).2 = w

theorem isQuestion_pure (a : α) : IsQuestion (pure a) := fun _ ↦ rfl

theorem isQuestion_throw (failure : Failure) : IsQuestion (throw failure : Session α) :=
  fun _ ↦ rfl

theorem isQuestion_ofExcept (outcome : Except Failure α) : IsQuestion (ofExcept outcome) :=
  fun w ↦ by rw [runIn_ofExcept]

theorem IsQuestion.bind {session : Session α} {next : α → Session β} (h : IsQuestion session)
    (hnext : ∀ a, IsQuestion (next a)) : IsQuestion (session >>= next) := by
  intro w
  have hw := h w
  rcases hrun : runIn session w with ⟨outcome, after⟩
  obtain rfl : after = w := by rw [hrun] at hw; exact hw
  cases outcome with
  | ok a =>
    rw [runIn_bind_of_ok hrun]
    exact hnext a after
  | error failure => rw [runIn_bind_of_error hrun]

theorem IsQuestion.tryCatch {session : Session α} {recover : Failure → Session α}
    (h : IsQuestion session) (hrecover : ∀ failure, IsQuestion (recover failure)) :
    IsQuestion (tryCatch session recover) := by
  intro w
  have hw := h w
  rcases hrun : runIn session w with ⟨outcome, after⟩
  obtain rfl : after = w := by rw [hrun] at hw; exact hw
  cases outcome with
  | ok a => rw [runIn_tryCatch_of_ok hrun]
  | error failure =>
    rw [runIn_tryCatch_of_error hrun]
    exact hrecover failure after

theorem isQuestion_probe_realpath (path : String) : IsQuestion (probe.realpath path) :=
  fun w ↦ by rw [runIn_probe_realpath]

theorem isQuestion_probe_readText (path : String) : IsQuestion (probe.readText path) :=
  fun w ↦ by rw [runIn_probe_readText]

/-! ### The failures of a session -/

/-- Every failure of a session is of some kind. -/
def FailsOnly (P : Failure → Prop) (session : Session α) : Prop :=
  ∀ w failure after, runIn session w = (.error failure, after) → P failure

/-- A session that does not fail. -/
def Succeeds (session : Session α) : Prop := FailsOnly (fun _ ↦ False) session

section Failures

variable {P : Failure → Prop} {session : Session α} {next : α → Session β}

theorem failsOnly_of_runIn (h : ∀ w, ∃ a after, runIn session w = (.ok a, after)) :
    FailsOnly P session := by
  intro w failure after hrun
  obtain ⟨a, mid, hok⟩ := h w
  cases hok.symm.trans hrun

theorem failsOnly_pure (a : α) : FailsOnly P (pure a : Session α) :=
  failsOnly_of_runIn fun w ↦ ⟨a, w, rfl⟩

theorem failsOnly_get : FailsOnly P (get : Session World) :=
  failsOnly_of_runIn fun w ↦ ⟨w, w, rfl⟩

theorem failsOnly_set (after : World) : FailsOnly P (set after : Session PUnit) :=
  failsOnly_of_runIn fun _ ↦ ⟨(), after, rfl⟩

theorem failsOnly_modify (f : World → World) : FailsOnly P (modify f : Session PUnit) :=
  failsOnly_of_runIn fun w ↦ ⟨(), f w, rfl⟩

theorem failsOnly_throw {failure : Failure} (h : P failure) :
    FailsOnly P (throw failure : Session α) := by
  intro w failure' after hrun
  obtain rfl := Except.error.inj (congrArg Prod.fst hrun)
  exact h

theorem failsOnly_ofExcept {outcome : Except Failure α}
    (h : ∀ failure, outcome = .error failure → P failure) : FailsOnly P (ofExcept outcome) := by
  intro w failure after hrun
  rw [runIn_ofExcept] at hrun
  exact h failure (congrArg Prod.fst hrun)

theorem FailsOnly.bind (h : FailsOnly P session) (hnext : ∀ a, FailsOnly P (next a)) :
    FailsOnly P (session >>= next) := by
  intro w failure after hrun
  rcases hfirst : runIn session w with ⟨outcome, mid⟩
  cases outcome with
  | ok a =>
    rw [runIn_bind_of_ok hfirst] at hrun
    exact hnext a mid failure after hrun
  | error fault =>
    rw [runIn_bind_of_error hfirst] at hrun
    obtain rfl := Except.error.inj (congrArg Prod.fst hrun)
    exact h w fault mid hfirst

theorem failsOnly_forM {items : List β} {act : β → Session PUnit}
    (h : ∀ item, FailsOnly P (act item)) : FailsOnly P (items.forM act) := by
  induction items with
  | nil => exact failsOnly_pure _
  | cons item items ih =>
    have hcons : (item :: items).forM act = act item >>= fun _ ↦ items.forM act := rfl
    rw [hcons]
    exact (h item).bind fun _ ↦ ih

theorem FailsOnly.ite {condition : Prop} [Decidable condition] {other : Session α}
    (h : FailsOnly P session) (hother : FailsOnly P other) :
    FailsOnly P (if condition then session else other) := by
  split
  · exact h
  · exact hother

/-- A session that does not fail has an answer. -/
theorem Succeeds.exists_ok (h : Succeeds session) (w : World) :
    ∃ a after, runIn session w = (.ok a, after) := by
  rcases hrun : runIn session w with ⟨outcome, after⟩
  cases outcome with
  | ok a => exact ⟨a, after, rfl⟩
  | error failure => exact (h w failure after hrun).elim

end Failures

/-! ### Changing the file system -/

theorem failsOnly_guardPath (path : String) :
    FailsOnly Failure.IsGeneral (ofExcept (guardPath path)) :=
  failsOnly_ofExcept fun _ ↦ isGeneral_of_guardPath

theorem failsOnly_makeDirectory (path : String) :
    FailsOnly Failure.IsGeneral (makeDirectory path) := by
  refine (failsOnly_guardPath path).bind fun _ ↦ failsOnly_get.bind fun w ↦
    (failsOnly_set _).bind fun _ ↦ ?_
  cases (w.disk.makeDirectory w.cwd path).outcome with
  | ok => exact failsOnly_pure _
  | error errno => exact failsOnly_throw (.call _)

theorem failsOnly_changeFile (call : FileSystem → String → Except CallFault (FileSystem × Location))
    (path : String) : FailsOnly Failure.IsGeneral (changeFile call path) := by
  refine (failsOnly_guardPath path).bind fun _ ↦ failsOnly_get.bind fun w ↦ ?_
  cases call w.disk w.cwd with
  | ok changed => exact failsOnly_set _
  | error fault => exact failsOnly_throw (.call fault)

end Session

/-! ### Counting calls -/

/-- A session in which the calls of one capability are counted. -/
abbrev Counted := ExceptT Failure (StateM (World × Nat))

namespace Counted

variable {α β : Type} {w after : World} {calls more : Nat} {a : α} {failure : Failure}

/-- Runs a counted session in a world, after some calls have been made. -/
def runIn (session : Counted α) (w : World) (calls : Nat) : Except Failure α × World × Nat :=
  (ExceptT.run session).run (w, calls)

/-- A session that does not call the capability. -/
def quiet (session : Session α) : Counted α := fun (w, calls) ↦
  ((session.runIn w).1, (session.runIn w).2, calls)

/-- A call of the capability. -/
def call (capability : Session α) : Counted α := fun (w, calls) ↦
  ((capability.runIn w).1, (capability.runIn w).2, calls + 1)

@[simp]
theorem runIn_pure (a : α) (w : World) (calls : Nat) :
    runIn (pure a) w calls = (.ok a, w, calls) := rfl

@[simp]
theorem runIn_throw (failure : Failure) (w : World) (calls : Nat) :
    runIn (throw failure : Counted α) w calls = (.error failure, w, calls) := rfl

@[simp]
theorem runIn_quiet (session : Session α) (w : World) (calls : Nat) :
    runIn (quiet session) w calls = ((session.runIn w).1, (session.runIn w).2, calls) := rfl

@[simp]
theorem runIn_call (capability : Session α) (w : World) (calls : Nat) :
    runIn (call capability) w calls =
      ((capability.runIn w).1, (capability.runIn w).2, calls + 1) := rfl

theorem runIn_bind (session : Counted α) (next : α → Counted β) (w : World) (calls : Nat) :
    runIn (session >>= next) w calls = match runIn session w calls with
      | (.ok a, after, more) => runIn (next a) after more
      | (.error failure, after, more) => (.error failure, after, more) := by
  rcases h : runIn session w calls with ⟨outcome, after, more⟩
  cases outcome with
  | ok a => exact bind_apply_of_ok h next
  | error failure => exact bind_apply_of_error h next

theorem quiet_pure (a : α) : quiet (pure a : Session α) = pure a := rfl

theorem quiet_throw (failure : Failure) : quiet (throw failure : Session α) = throw failure := rfl

theorem quiet_bind (session : Session α) (next : α → Session β) :
    quiet (session >>= next) = quiet session >>= fun a ↦ quiet (next a) := by
  funext ⟨w, calls⟩
  change runIn (quiet (session >>= next)) w calls = runIn (quiet session >>= _) w calls
  rw [runIn_bind, runIn_quiet, runIn_quiet, Session.runIn_bind]
  rcases session.runIn w with ⟨outcome, after⟩
  cases outcome <;> rfl

theorem quiet_tryCatch (session : Session α) (recover : Failure → Session α) :
    quiet (tryCatch session recover) = tryCatch (quiet session) fun failure ↦
      quiet (recover failure) := by
  funext ⟨w, calls⟩
  change ((Session.runIn (tryCatch session recover) w).1,
    (Session.runIn (tryCatch session recover) w).2, calls) = _
  rcases hrun : session.runIn w with ⟨outcome, after⟩
  have hquiet : quiet session (w, calls) = (outcome, after, calls) := by
    rw [quiet, hrun]
  cases outcome with
  | ok a =>
    rw [Session.runIn_tryCatch_of_ok hrun]
    simp only [tryCatch, tryCatchThe, MonadExceptOf.tryCatch, ExceptT.tryCatch, ExceptT.mk, bind,
      StateT.bind, hquiet]
    rfl
  | error failure =>
    rw [Session.runIn_tryCatch_of_error hrun]
    simp only [tryCatch, tryCatchThe, MonadExceptOf.tryCatch, ExceptT.tryCatch, ExceptT.mk, bind,
      StateT.bind, hquiet]
    rfl

end Counted

end ResourceLocator
