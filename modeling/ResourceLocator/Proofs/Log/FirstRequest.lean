import ResourceLocator.Proofs.FileSystem.Locks
import ResourceLocator.Proofs.Log.Entry
import ResourceLocator.Proofs.Log.Opening

/-!
# The first request to keep entries

The first request decides for good: afterwards nothing is opened any more, whatever is asked for
(`Journal.runIn_configure_of_asked`). If it asks for entries to be kept, and the file for them can
be made, then the file holds the header and nothing else, its path leads to it, and no other file is
changed (`World.Begins`). Otherwise no file is changed at all (`World.OpensNothing`), be it that no
entries are to be kept, or that the file or a directory on the way to it cannot be made.
-/

namespace ResourceLocator

open FileSystem Session

variable {w asked opened after : World} {path projectDir head : String} {loc : Location}

namespace World

/-- A request to keep entries opens a file for them. -/
def OpensLog (asked : World) (config : Option JournalConfig) (projectDir path : String)
    (opened : World) : Prop :=
  ∃ journal, config = some journal ∧ journal.enabled = true ∧
    path = Journal.logPath journal projectDir asked.now ∧
    runIn (Journal.configure config projectDir) asked = (.ok (), opened)

/-- A file has been made at a location, and it holds a text. -/
structure Begins (asked : World) (path : String) (loc : Location) (head : String)
    (opened : World) : Prop where
  /-- The path leads there. -/
  leads : opened.disk.openNew opened.cwd path = .ok loc
  /-- The text is there, and can be written to. -/
  node : opened.disk.node? loc = some (.file head false)
  /-- No other file is changed. -/
  other : ∀ other, other ≠ loc → opened.disk.text? other = asked.disk.text? other
  /-- Nothing else is written. -/
  written : opened.effects.written = asked.effects.written ++ [loc]
  /-- Nothing is said. -/
  errors : opened.effects.errors = asked.effects.errors
  /-- No time has passed. -/
  now : opened.now = asked.now
  /-- Entries are kept there. -/
  journal : opened.journal = { asked.journal with file := some path, isConfigured := true }

/-- No file is opened and none is changed. -/
structure OpensNothing (asked after : World) : Prop where
  /-- No file is changed. -/
  texts : ∀ loc, after.disk.text? loc = asked.disk.text? loc
  /-- Nothing is written. -/
  written : after.effects.written = asked.effects.written
  /-- Nothing is said. -/
  errors : after.effects.errors = asked.effects.errors
  /-- No time has passed. -/
  now : after.now = asked.now
  /-- The choice has been made. -/
  journal : after.journal = { asked.journal with isConfigured := true }

end World

namespace Journal

/-- **A later request changes nothing.** -/
theorem runIn_configure_of_asked (h : w.journal.isConfigured = true)
    (config : Option JournalConfig) (projectDir : String) :
    runIn (configure config projectDir) w = (.ok (), w) := by
  unfold configure
  rw [runIn_bind_of_ok (runIn_get w), h]
  rfl

/-- If no entries are to be kept, nothing is opened. -/
theorem opensNothing_of_not_enabled (hunasked : asked.journal.isConfigured = false)
    {config : Option JournalConfig} (h : ∀ journal ∈ config, journal.enabled = false)
    (projectDir : String) :
    asked.OpensNothing (runIn (configure config projectDir) asked).2 := by
  have hrun : runIn (configure config projectDir) asked =
      (.ok (), { asked with journal.isConfigured := true }) := by
    unfold configure
    rw [runIn_bind_of_ok (runIn_get asked), hunasked]
    cases config with
    | none => rfl
    | some journal =>
      simp only [h journal rfl]
      rfl
  rw [hrun]
  exact ⟨fun _ ↦ rfl, rfl, rfl, rfl, rfl⟩

/-- If entries are to be kept, the file for them is made, or a failure leaves every file as it
was. -/
theorem begins_or_fails (hunasked : asked.journal.isConfigured = false) {journal : JournalConfig}
    (henabled : journal.enabled = true) (projectDir : String) :
    (∃ opened loc, runIn (configure (some journal) projectDir) asked = (.ok (), opened) ∧
      '\x00' ∉ (logPath journal projectDir asked.now).toList ∧
      asked.Begins (logPath journal projectDir asked.now) loc (header projectDir asked.now)
        opened) ∨
    ∃ failure after, runIn (configure (some journal) projectDir) asked = (.error failure, after) ∧
      asked.OpensNothing after := by
  rw [runIn_configure_of_unasked hunasked henabled]
  set path := logPath journal projectDir asked.now
  set begun : World := { asked with journal.isConfigured := true }
  obtain ⟨result, hmakes, hmade⟩ := exists_made (Path.dirname path) begun
  have htexts : ∀ loc, result.disk.text? loc = asked.disk.text? loc := hmakes.text?_eq
  rcases hdirs : runIn (makeDirectory (Path.dirname path)) begun with ⟨outcome, mid⟩
  rw [hdirs] at hmade
  obtain rfl := hmade
  cases outcome with
  | error failure =>
    rw [runIn_bind_of_error hdirs]
    exact .inr ⟨failure, _, rfl, htexts, rfl, rfl, rfl, rfl⟩
  | ok =>
    rw [runIn_bind_of_ok hdirs, writeFile]
    rcases runIn_changeFile_cases
        (fun fs cwd ↦ fs.write cwd path (header projectDir asked.now)) path
        { begun with disk := result.disk, effects.made := begun.effects.made ++ result.made }
      with ⟨disk, loc, hwrite, hwritten⟩ | ⟨failure, -, -, herror⟩
    · rw [runIn_bind_of_ok hwritten]
      obtain ⟨hopen, rfl⟩ := eq_set_of_update hwrite
      have hnul : '\x00' ∉ path.toList := by
        intro hnul
        rw [changeFile, guardPath_of_nul hnul] at hwritten
        cases hwritten
      have hleads := (grows_of_update hwrite).openNew_eq_ok hopen (by simp)
      exact .inl ⟨_, loc, rfl, hnul, hleads, node?_set_self ..,
        fun other hother ↦ (text?_set_of_ne _ _ hother).trans (htexts other), rfl, rfl, rfl, rfl⟩
    · rw [runIn_bind_of_error herror]
      exact .inr ⟨failure, _, rfl, htexts, rfl, rfl, rfl, rfl⟩

/-- **The first request to keep entries** opens a file for them, or changes no file. -/
theorem configure_cases (hunasked : asked.journal.isConfigured = false)
    (config : Option JournalConfig) (projectDir : String) :
    (∃ path opened loc, asked.OpensLog config projectDir path opened ∧
      asked.Begins path loc (header projectDir asked.now) opened) ∨
    (∀ path opened, ¬asked.OpensLog config projectDir path opened) ∧
      asked.OpensNothing (runIn (configure config projectDir) asked).2 := by
  by_cases henabled : ∃ journal, config = some journal ∧ journal.enabled = true
  · obtain ⟨journal, rfl, henabled⟩ := henabled
    rcases begins_or_fails hunasked henabled projectDir with
      ⟨opened, loc, hrun, -, hbegins⟩ | ⟨failure, after, hrun, hnothing⟩
    · exact .inl ⟨_, opened, loc, ⟨journal, rfl, henabled, rfl, hrun⟩, hbegins⟩
    · refine .inr ⟨?_, by rw [hrun]; exact hnothing⟩
      rintro path opened ⟨_, -, -, -, hok⟩
      cases hrun.symm.trans hok
  · refine .inr ⟨?_, opensNothing_of_not_enabled hunasked (fun journal hjournal ↦ ?_) projectDir⟩
    · rintro path opened ⟨journal, hconfig, hjournal, -⟩
      exact henabled ⟨journal, hconfig, hjournal⟩
    · rw [← Bool.not_eq_true]
      exact fun hjournal' ↦ henabled ⟨journal, hjournal, hjournal'⟩

end Journal

/-- A file that is opened has been made, and its path has no NUL. -/
theorem World.OpensLog.begins {config : Option JournalConfig}
    (h : asked.OpensLog config projectDir path opened)
    (hunasked : asked.journal.isConfigured = false) : '\x00' ∉ path.toList ∧
      ∃ loc, asked.Begins path loc (Journal.header projectDir asked.now) opened := by
  obtain ⟨journal, rfl, henabled, rfl, hrun⟩ := h
  rcases Journal.begins_or_fails hunasked henabled projectDir with
    ⟨opened', loc, hrun', hnul, hbegins⟩ | ⟨failure, after, hrun', -⟩
  · obtain rfl : opened = opened' := congrArg Prod.snd (hrun.symm.trans hrun')
    exact ⟨hnul, loc, hbegins⟩
  · cases hrun.symm.trans hrun'

end ResourceLocator
