import ResourceLocator.Log.Journal
import ResourceLocator.Proofs.FileSystem.SameWays
import ResourceLocator.Proofs.Session

/-!
# Making entries in the debug log

Making an entry never fails (`Journal.runIn_write`): an entry that cannot be kept ends the keeping,
and every failure to keep one has a message that can be shown. What an entry does to the world is
at most to write to one file (`World.logged_noted`), so that no directory and no link changes while
a program makes entries; without a file to keep entries in, it does nothing to the disk.
-/

namespace ResourceLocator

/-- The world after an entry has been made. -/
def World.noted (w : World) (note : Note) : World := (Session.runIn (Journal.write note) w).2

/-- What making entries can do to a world: change files, and nothing else that a later question to
the file system depends on. -/
structure World.Logged (w after : World) : Prop where
  /-- The working directory stays. -/
  cwd : after.cwd = w.cwd
  /-- So do directories and links. -/
  ways : FileSystem.SameWays w.disk after.disk

namespace World.Logged

theorem refl (w : World) : Logged w w := ⟨rfl, .refl w.disk⟩

theorem trans {w mid after : World} (h : Logged w mid) (h' : Logged mid after) :
    Logged w after :=
  ⟨h'.cwd.trans h.cwd, h.ways.trans h'.ways⟩

/-- A change that does not concern the file system. -/
theorem of_disk {w after : World} (hcwd : after.cwd = w.cwd) (hdisk : after.disk = w.disk) :
    Logged w after :=
  ⟨hcwd, hdisk ▸ .refl w.disk⟩

/-- The same paths lead to a directory before and after. -/
theorem leadsToDirectory_eq {w after : World} (h : Logged w after) (path : String) :
    after.disk.leadsToDirectory after.cwd path = w.disk.leadsToDirectory w.cwd path := by
  rw [h.cwd, h.ways.leadsToDirectory_eq]

end World.Logged

/-! ### Changing a file -/

namespace Session

variable {call : FileSystem → String → Except CallFault (FileSystem × Location)} {path : String}

/-- A call that changes a file does so. -/
theorem runIn_changeFile_of_ok {w : World} {disk : FileSystem} {loc : Location}
    (hpath : '\x00' ∉ path.toList) (hcall : call w.disk w.cwd = .ok (disk, loc)) :
    runIn (changeFile call path) w =
      (.ok (), { w with disk, effects.written := w.effects.written ++ [loc] }) := by
  have hguard := runIn_ofExcept (guardPath path) w
  rw [guardPath_of_not_nul hpath] at hguard
  rw [changeFile, guardPath_of_not_nul hpath, runIn_bind_of_ok hguard,
    runIn_bind_of_ok (runIn_get w), hcall]
  rfl

/-- It does so, or a failure with a message leaves everything as it was. -/
theorem runIn_changeFile_cases
    (call : FileSystem → String → Except CallFault (FileSystem × Location)) (path : String)
    (w : World) :
    (∃ disk loc, call w.disk w.cwd = .ok (disk, loc) ∧ runIn (changeFile call path) w =
      (.ok (), { w with disk, effects.written := w.effects.written ++ [loc] })) ∨
    ∃ failure reason, failure.message = .ok reason ∧
      runIn (changeFile call path) w = (.error failure, w) := by
  have hguard := runIn_ofExcept (guardPath path) w
  by_cases hnul : '\x00' ∈ path.toList
  · rw [guardPath_of_nul hnul] at hguard
    refine .inr ⟨.nulPath path, _, rfl, ?_⟩
    rw [changeFile, guardPath_of_nul hnul]
    exact runIn_bind_of_error hguard _
  · cases hcall : call w.disk w.cwd with
    | ok changed => exact .inl ⟨changed.1, changed.2, rfl, runIn_changeFile_of_ok hnul hcall⟩
    | error fault =>
      rw [guardPath_of_not_nul hnul] at hguard
      refine .inr ⟨.call fault, _, rfl, ?_⟩
      rw [changeFile, guardPath_of_not_nul hnul, runIn_bind_of_ok hguard,
        runIn_bind_of_ok (runIn_get w), hcall]
      rfl

end Session

namespace Journal

open Session

variable {w : World}

/-- A text is put into a file, or a failure with a message leaves everything as it was. -/
theorem runIn_appendFile_cases (path text : String) (w : World) :
    (∃ after, runIn (appendFile path text) w = (.ok (), after) ∧ w.Logged after) ∨
      ∃ failure reason, failure.message = .ok reason ∧
        runIn (appendFile path text) w = (.error failure, w) := by
  rcases runIn_changeFile_cases (fun fs cwd ↦ fs.append cwd path text) path w with
    ⟨disk, loc, happend, hrun⟩ | ⟨failure, reason, hreason, hrun⟩
  · exact .inl ⟨_, hrun, rfl, FileSystem.sameWays_of_append happend⟩
  · exact .inr ⟨failure, reason, hreason, hrun⟩

/-- Keeping an entry does not fail: its failures have messages, and those are printed. -/
theorem exists_runIn_keep (file text : String) (w : World) :
    ∃ after, runIn (keep file text) w = (.ok (), after) ∧ w.Logged after := by
  unfold keep
  rcases runIn_appendFile_cases file text w with ⟨after, h, hlogged⟩ | ⟨failure, reason, hreason, h⟩
  · exact ⟨after, runIn_tryCatch_of_ok h _, hlogged⟩
  · have hmessage : runIn (messageOf failure) w = (.ok reason, w) := by
      rw [messageOf, runIn_ofExcept, hreason]
    rw [runIn_tryCatch_of_error h, runIn_bind_of_ok hmessage,
      runIn_bind_of_ok (runIn_printError _ w), runIn_modify]
    exact ⟨_, rfl, .of_disk rfl rfl⟩

/-- An entry is kept only if there is a file for it. -/
theorem exists_runIn_kept (file : Option String) (text : String) (w : World) :
    ∃ after, runIn (match file with
        | none => pure ()
        | some file => keep file text) w = (.ok (), after) ∧ w.Logged after ∧
      (file = none → after = w) := by
  cases file with
  | none => exact ⟨w, rfl, .refl w, fun _ ↦ rfl⟩
  | some file =>
    obtain ⟨after, hrun, hlogged⟩ := exists_runIn_keep file text w
    exact ⟨after, hrun, hlogged, fun h ↦ (by cases h)⟩

theorem exists_runIn_write (note : Note) (w : World) :
    ∃ after, runIn (write note) w = (.ok (), after) ∧ w.Logged after ∧
      (w.journal.file = none → after.disk = w.disk ∧ after.journal.file = none) := by
  unfold write
  rw [runIn_bind_of_ok (runIn_get w)]
  cases w.journal.isVerbose with
  | false =>
    obtain ⟨after, hrun, hlogged, hsame⟩ := exists_runIn_kept w.journal.file _ w
    exact ⟨after, hrun, hlogged, fun h ↦ by rw [hsame h]; exact ⟨rfl, h⟩⟩
  | true =>
    have hprint := runIn_printError (String.ofList w.now.clockTime ++ " " ++ note.line ++ "\n") w
    generalize hprinted : { w with effects.errors := _ } = printed at hprint
    have hsilent : w.Logged printed := hprinted ▸ .of_disk rfl rfl
    obtain ⟨after, hrun, hlogged, hsame⟩ := exists_runIn_kept w.journal.file _ printed
    refine ⟨after, (runIn_bind_of_ok hprint _).trans hrun, hsilent.trans hlogged, fun h ↦ ?_⟩
    rw [hsame h, ← hprinted]
    exact ⟨rfl, h⟩

/-- **Making an entry never fails.** -/
theorem runIn_write (note : Note) (w : World) : runIn (write note) w = (.ok (), w.noted note) := by
  obtain ⟨after, hrun, -, -⟩ := exists_runIn_write note w
  rw [World.noted, hrun]

theorem succeeds_write (note : Note) : Succeeds (write note) :=
  failsOnly_of_runIn fun w ↦ ⟨(), _, runIn_write note w⟩

/-- **Opening the debug log fails** only because a directory or a file cannot be made. -/
theorem failsOnly_configure (config : Option JournalConfig) (projectDir : String) :
    FailsOnly Failure.IsGeneral (configure config projectDir) := by
  unfold configure
  refine failsOnly_get.bind fun w ↦ .ite (failsOnly_pure _) ((failsOnly_set _).bind fun _ ↦ ?_)
  cases config with
  | none => exact failsOnly_pure _
  | some config =>
    refine .ite ?_ (failsOnly_pure _)
    exact (failsOnly_makeDirectory _).bind fun _ ↦ (failsOnly_changeFile _ _).bind fun _ ↦
      failsOnly_modify _

/-- If no log is to be kept, none is opened. -/
theorem runIn_configure_of_not_enabled (hfresh : w.journal = {}) {config : Option JournalConfig}
    (h : ∀ journal ∈ config, journal.enabled = false) (projectDir : String) :
    runIn (configure config projectDir) w =
      (.ok (), { w with journal := { isConfigured := true } }) := by
  unfold configure
  rw [runIn_bind_of_ok (runIn_get w), hfresh]
  cases config with
  | none => rfl
  | some journal =>
    simp only [h journal rfl]
    rfl

/-- A debug log that is not wanted is not opened. -/
theorem succeeds_configure_none (projectDir : String) : Succeeds (configure none projectDir) :=
  failsOnly_get.bind fun _ ↦ .ite (failsOnly_pure _) ((failsOnly_set _).bind fun _ ↦
    failsOnly_pure _)

end Journal

/-- **Making an entry changes at most files.** -/
theorem World.logged_noted (w : World) (note : Note) : w.Logged (w.noted note) := by
  obtain ⟨after, hrun, hlogged, -⟩ := Journal.exists_runIn_write note w
  rw [World.noted, hrun]
  exact hlogged

/-- Without a file for entries the disk stays as it is. -/
theorem World.disk_noted {w : World} (h : w.journal.file = none) (note : Note) :
    (w.noted note).disk = w.disk ∧ (w.noted note).journal.file = none := by
  obtain ⟨after, hrun, -, hsame⟩ := Journal.exists_runIn_write note w
  rw [World.noted, hrun]
  exact hsame h

end ResourceLocator
