import ResourceLocator.Proofs.FileSystem.Growth
import ResourceLocator.Proofs.Log.Journal
import ResourceLocator.Proofs.Session.MadeOf

/-!
# The file that entries are kept in

As long as the file of the debug log stands at a location (`World.LogsAt`), entries change the text
of the file there and nothing else on the disk (`World.Keeps`). Both hold after an entry again, and
without a file an entry changes nothing on the disk, so that they can be followed through a whole
run (`World.LogsOnly`).
-/

namespace ResourceLocator

open FileSystem Session

/-- From one world to another nothing on the disk changes but texts of files at some locations. -/
structure World.Keeps (P : Location → Prop) (w after : World) : Prop where
  /-- The working directory stays. -/
  cwd : after.cwd = w.cwd
  /-- The console shows colours as before. -/
  colours : after.hasColours = w.hasColours
  /-- The same stands everywhere, but for texts. -/
  shape : SameShape w.disk after.disk
  /-- Elsewhere everything is the same. -/
  other : ∀ loc, ¬P loc → after.disk.node? loc = w.disk.node? loc
  /-- No directory is made. -/
  made : after.effects.made = w.effects.made
  /-- Nothing is written elsewhere. -/
  written : ∃ written, after.effects.written = w.effects.written ++ written ∧
    ∀ loc ∈ written, P loc
  /-- Where there is no such location, the disk stays. -/
  still : (∀ loc, ¬P loc) → after.disk = w.disk
  /-- Entries are kept in the same file, or no more. -/
  file : ∀ file, after.journal.file = some file → w.journal.file = some file

/-- Entries are kept in the file at a location. -/
def World.LogsIn (w : World) (loc : Location) : Prop :=
  ∃ file, w.journal.file = some file ∧ w.disk.openNew w.cwd file = .ok loc

/-- The file for entries, if there is one, stands at one of some locations. -/
def World.LogsAt (P : Location → Prop) (w : World) : Prop :=
  ∀ file, w.journal.file = some file → ∃ loc text locked, P loc ∧
    w.disk.openNew w.cwd file = .ok loc ∧ w.disk.node? loc = some (.file text locked)

/-- While the file for entries stands at one of some locations, nothing changes but texts there, and
it goes on standing at one of them. -/
def World.LogsOnly (P : Location → Prop) (w after : World) : Prop :=
  w.LogsAt P → w.Keeps P after ∧ after.LogsAt P

variable {P : Location → Prop} {w mid after : World}

namespace World.Keeps

/-- What does not concern the disk. -/
theorem of_same (hdisk : after.disk = w.disk) (hcwd : after.cwd = w.cwd)
    (hcolours : after.hasColours = w.hasColours) (hmade : after.effects.made = w.effects.made)
    (hwritten : after.effects.written = w.effects.written)
    (hfile : ∀ file, after.journal.file = some file → w.journal.file = some file) :
    Keeps P w after where
  cwd := hcwd
  colours := hcolours
  shape := hdisk ▸ .refl _
  other _ _ := by rw [hdisk]
  made := hmade
  written := ⟨[], by rw [hwritten, List.append_nil], fun _ h ↦ absurd h List.not_mem_nil⟩
  still _ := hdisk
  file := hfile

theorem refl (w : World) : Keeps P w w := .of_same rfl rfl rfl rfl rfl fun _ h ↦ h

theorem trans (h : Keeps P w mid) (h' : Keeps P mid after) : Keeps P w after := by
  obtain ⟨written, heq, hwritten⟩ := h.written
  obtain ⟨written', heq', hwritten'⟩ := h'.written
  refine ⟨h'.cwd.trans h.cwd, h'.colours.trans h.colours, h.shape.trans h'.shape,
    fun loc hloc ↦ (h'.other loc hloc).trans (h.other loc hloc), h'.made.trans h.made,
    ⟨written ++ written', ?_, fun loc hloc ↦ ?_⟩,
    fun hnone ↦ (h'.still hnone).trans (h.still hnone),
    fun file hafter ↦ h.file file (h'.file file hafter)⟩
  · rw [heq', heq, List.append_assoc]
  · rcases List.mem_append.1 hloc with hloc | hloc
    · exact hwritten loc hloc
    · exact hwritten' loc hloc

/-- A file that stands at a location stands there still. -/
theorem logsAt (h : Keeps P w after) (hlogs : w.LogsAt P) : after.LogsAt P := by
  intro file hafter
  obtain ⟨loc, text, locked, hloc, hopen, hnode⟩ := hlogs file (h.file file hafter)
  obtain ⟨text, hnode⟩ := h.shape.grows.file hnode
  refine ⟨loc, text, locked, hloc, ?_, hnode⟩
  rw [h.cwd]
  exact h.shape.grows.openNew_eq_ok hopen (by simp [hnode])

end World.Keeps

namespace World.LogsOnly

theorem trans (h : LogsOnly P w mid) (h' : LogsOnly P mid after) : LogsOnly P w after := by
  intro hlogs
  obtain ⟨hkeeps, hlogs⟩ := h hlogs
  obtain ⟨hkeeps', hlogs⟩ := h' hlogs
  exact ⟨hkeeps.trans hkeeps', hlogs⟩

/-- What does not concern the disk. -/
theorem of_same (hdisk : after.disk = w.disk) (hcwd : after.cwd = w.cwd)
    (hcolours : after.hasColours = w.hasColours) (hmade : after.effects.made = w.effects.made)
    (hwritten : after.effects.written = w.effects.written)
    (hfile : ∀ file, after.journal.file = some file → w.journal.file = some file) :
    LogsOnly P w after := by
  intro hlogs
  have hkeeps : w.Keeps P after := .of_same hdisk hcwd hcolours hmade hwritten hfile
  exact ⟨hkeeps, hkeeps.logsAt hlogs⟩

theorem refl (w : World) : LogsOnly P w w := of_same rfl rfl rfl rfl rfl fun _ h ↦ h

end World.LogsOnly

namespace World

theorem logsAt_of_none (h : w.journal.file = none) : w.LogsAt P :=
  fun _ hfile ↦ nomatch h.symm.trans hfile

/-- The file for entries stands where entries are kept. -/
theorem LogsAt.logsIn (h : w.LogsAt P) : w.LogsAt w.LogsIn := by
  intro file hfile
  obtain ⟨loc, text, locked, -, hopen, hnode⟩ := h file hfile
  exact ⟨loc, text, locked, ⟨file, hfile, hopen⟩, hopen, hnode⟩

end World

/-! ### Entries -/

/-- **An entry goes to the file that stands there**, and changes nothing else. -/
theorem Session.leads_appendFile {file : String} (hfile : w.journal.file = some file)
    (text : String) : w.LogsOnly P (runIn (appendFile file text) w).2 := by
  intro hlogs
  obtain ⟨loc, old, locked, hloc, hopen, hnode⟩ := hlogs file hfile
  rcases runIn_changeFile_cases (fun fs cwd ↦ fs.append cwd file text) file w with
    ⟨disk, place, happend, hrun⟩ | ⟨failure, -, -, hrun⟩
  · obtain ⟨hplace, hbefore, new, rfl⟩ := update_eq_ok happend
    obtain rfl : loc = place := Except.ok.inj (hopen.symm.trans hplace)
    have hkeeps : w.Keeps P (runIn (appendFile file text) w).2 := by
      rw [appendFile, hrun]
      refine ⟨rfl, rfl, ?_, fun other hother ↦ ?_, rfl, ⟨[loc], rfl, fun other hother ↦ ?_⟩,
        fun hnone ↦ absurd hloc (hnone loc), fun _ h ↦ h⟩
      · rcases hbefore with hnone | ⟨before, hbefore⟩
        · cases hnode.symm.trans hnone
        · exact sameShape_set_of_file hbefore new
      · exact node?_set_of_ne w.disk _ fun h ↦ hother (h ▸ hloc)
      · exact List.mem_singleton.1 hother ▸ hloc
    exact ⟨hkeeps, hkeeps.logsAt hlogs⟩
  · rw [appendFile, hrun]
    exact World.LogsOnly.refl w hlogs

namespace Journal

theorem leads_keep {file : String} (hfile : w.journal.file = some file) (text : String) :
    w.LogsOnly P (runIn (keep file text) w).2 := by
  have hrecover : ∀ failure, Leads (World.LogsOnly P) (do
      let reason ← messageOf failure
      printError ("reloc: debug log disabled: " ++ reason ++ "\n")
      modify fun w ↦ { w with journal.file := none }) := by
    intro failure
    have hask : Leads (World.LogsOnly P) (messageOf failure) := fun w ↦ by
      rw [messageOf, runIn_ofExcept]
      exact .refl w
    exact hask.bind .trans fun _ ↦ Leads.bind .trans
      (fun _ ↦ .of_same rfl rfl rfl rfl rfl fun _ h ↦ h)
      fun _ _ ↦ .of_same rfl rfl rfl rfl rfl fun _ h ↦ by cases h
  have happend := leads_appendFile (P := P) hfile text
  unfold keep
  rcases hrun : runIn (appendFile file text) w with ⟨outcome, mid⟩
  rw [hrun] at happend
  cases outcome with
  | ok =>
    rw [runIn_tryCatch_of_ok hrun]
    exact happend
  | error failure =>
    rw [runIn_tryCatch_of_error hrun]
    exact happend.trans (hrecover failure mid)

/-- **Making an entry changes nothing but the text of the file that entries are kept in.** -/
theorem leads_write (note : Note) : Leads (World.LogsOnly P) (write note) := by
  intro w
  unfold write
  rw [runIn_bind_of_ok (runIn_get w)]
  have hshown : w.LogsOnly P { w with effects.errors := w.effects.errors ++
      (String.ofList w.now.clockTime ++ " " ++ note.line ++ "\n") } :=
    .of_same rfl rfl rfl rfl rfl fun _ h ↦ h
  cases hfile : w.journal.file with
  | none =>
    cases w.journal.isVerbose with
    | false => exact .refl w
    | true => exact hshown
  | some file =>
    cases w.journal.isVerbose with
    | false => exact leads_keep hfile _
    | true =>
      refine hshown.trans (leads_keep ?_ _)
      exact hfile

end Journal

end ResourceLocator
