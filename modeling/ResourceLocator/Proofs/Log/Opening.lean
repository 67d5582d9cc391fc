import ResourceLocator.Proofs.Log.Kept

/-!
# Opening the debug log

To open the debug log is to make the directories that are missing on the way to its file, and then
the file (`World.Opens`). Whether that ends well or fails on the way, nothing else on the disk is
changed (`Journal.exists_opens`).
-/

namespace ResourceLocator

open FileSystem Session

variable {w mid after : World} {path : String} {dirs files : List Location}

/-- From one world to another some directories have been made on the way to a file, and the file has
been written or not. -/
structure World.Opens (w : World) (path : String) (dirs files : List Location) (after : World) :
    Prop where
  /-- The working directory stays. -/
  cwd : after.cwd = w.cwd
  /-- The console shows colours as before. -/
  colours : after.hasColours = w.hasColours
  /-- The directories made. -/
  made : after.effects.made = w.effects.made ++ dirs
  /-- The files written. -/
  written : after.effects.written = w.effects.written ++ files
  /-- Elsewhere everything is the same. -/
  other : ∀ loc, loc ∉ dirs → loc ∉ files → after.disk.node? loc = w.disk.node? loc
  /-- A directory is made where nothing stood. -/
  new : ∀ loc ∈ dirs, w.disk.node? loc = none ∧ after.disk.node? loc = some (.directory false)
  /-- A part of the way to the file leads to it. -/
  named : ∀ loc ∈ dirs, ∃ n left, after.disk.walkOn .followLink maxLinks
    (startOf w.cwd (Path.dirname path)) ((walkNames (Path.dirname path)).take n) = .ok (loc, left)
  /-- A file is written where the path leads, in the place of a file or of nothing. -/
  log : ∀ loc ∈ files,
    (w.disk.node? loc = none ∨ ∃ old, w.disk.node? loc = some (.file old false)) ∧
      after.disk.openNew w.cwd path = .ok loc ∧
      ∃ text, after.disk.node? loc = some (.file text false)
  /-- Entries are kept in no other file. -/
  file : ∀ file, after.journal.file = some file → file = path ∧ files ≠ []

namespace World.Opens

variable {journal : Journal}

/-- Nothing is opened. -/
theorem nothing (w : World) (path : String) (hfile : journal.file = none) :
    w.Opens path [] [] { w with journal } where
  cwd := rfl
  colours := rfl
  made := (List.append_nil _).symm
  written := (List.append_nil _).symm
  other _ _ _ := rfl
  new _ h := absurd h List.not_mem_nil
  named _ h := absurd h List.not_mem_nil
  log _ h := absurd h List.not_mem_nil
  file _ h := by cases hfile.symm.trans h

/-- The directories have been made, or some of them. -/
theorem of_made {result : Made} (h : MakesAlong w.disk maxLinks
      (startOf w.cwd (Path.dirname path)) (walkNames (Path.dirname path)) result)
    (hfile : journal.file = none) : w.Opens path result.made []
      { w with journal, disk := result.disk, effects.made := w.effects.made ++ result.made } where
  cwd := rfl
  colours := rfl
  made := rfl
  written := (List.append_nil _).symm
  other loc hloc _ := h.other loc hloc
  new := h.new
  named := h.named
  log _ h := absurd h List.not_mem_nil
  file _ h := by cases hfile.symm.trans h

/-- Then the file is written. -/
theorem write {disk : FileSystem} {loc : Location} {text : String} (h : w.Opens path dirs [] mid)
    (hwrite : mid.disk.write mid.cwd path text = .ok (disk, loc)) : w.Opens path dirs [loc]
      { mid with
        disk
        effects.written := mid.effects.written ++ [loc]
        journal.file := some path } := by
  obtain ⟨hopen, hbefore, new, rfl⟩ := update_eq_ok hwrite
  have hgrows := grows_of_update hwrite
  have hset := node?_set_self mid.disk loc (.file new false)
  have hnew : loc ∉ dirs := by
    intro hloc
    cases (hgrows.directory (h.new loc hloc).2).symm.trans hset
  have hold : mid.disk.node? loc = w.disk.node? loc := h.other loc hnew List.not_mem_nil
  refine ⟨h.cwd, h.colours, h.made, ?_, fun other hother hne ↦ ?_, fun other hother ↦ ?_,
    fun other hother ↦ ?_, fun other hother ↦ ?_, fun file hafter ↦ ?_⟩
  · show mid.effects.written ++ [loc] = w.effects.written ++ [loc]
    rw [h.written, List.append_nil]
  · have hne : other ≠ loc := mt List.mem_singleton.2 hne
    exact (node?_set_of_ne _ _ hne).trans (h.other other hother List.not_mem_nil)
  · exact ⟨(h.new other hother).1, hgrows.directory (h.new other hother).2⟩
  · obtain ⟨n, left, hnamed⟩ := h.named other hother
    exact ⟨n, left, hgrows.walkOn_eq_ok (by decide) hnamed⟩
  · obtain rfl := List.mem_singleton.1 hother
    rw [hold] at hbefore
    rw [h.cwd] at hopen
    exact ⟨hbefore, hgrows.openNew_eq_ok hopen (by simp), new, hset⟩
  · exact ⟨(Option.some.inj hafter).symm, by simp⟩

/-- **Everything that stands stays.** -/
theorem grows (h : w.Opens path dirs files after) : Grows w.disk after.disk := by
  intro loc node hnode
  by_cases hdirs : loc ∈ dirs
  · cases hnode.symm.trans (h.new loc hdirs).1
  by_cases hfiles : loc ∈ files
  · obtain ⟨hbefore, -, text, hafter⟩ := h.log loc hfiles
    rcases hbefore with hnone | ⟨old, hold⟩
    · cases hnode.symm.trans hnone
    · obtain rfl := Option.some.inj (hnode.symm.trans hold)
      exact ⟨_, hafter, rfl⟩
  · exact ⟨node, (h.other loc hdirs hfiles).trans hnode, rfl⟩

/-- Only one file is written. -/
theorem unique (h : w.Opens path dirs files after) {loc other : Location} (hloc : loc ∈ files)
    (hother : other ∈ files) : loc = other :=
  Except.ok.inj ((h.log loc hloc).2.1.symm.trans (h.log other hother).2.1)

/-- The file for entries, if there is one, stands where it has been written. -/
theorem logsAt (h : w.Opens path dirs files after) : after.LogsAt (· ∈ files) := by
  intro file hfile
  obtain ⟨rfl, hne⟩ := h.file file hfile
  obtain ⟨loc, hloc⟩ := List.exists_mem_of_ne_nil files hne
  obtain ⟨-, hopen, text, hnode⟩ := h.log loc hloc
  exact ⟨loc, text, false, hloc, h.cwd ▸ hopen, hnode⟩

/-- **Entries made afterwards** go to the file that has been opened. -/
theorem keeps (h : w.Opens path dirs files mid) (hkeeps : mid.Keeps (· ∈ files) after) :
    ∃ more, w.Opens path dirs (files ++ more) after ∧ ∀ loc ∈ more, loc ∈ files := by
  obtain ⟨more, hwritten, hmore⟩ := hkeeps.written
  have hgrows := hkeeps.shape.grows
  refine ⟨more, ⟨hkeeps.cwd.trans h.cwd, hkeeps.colours.trans h.colours, hkeeps.made.trans h.made,
    ?_, fun loc hdirs hfiles ↦ ?_, fun loc hloc ↦ ?_, fun loc hloc ↦ ?_, fun loc hloc ↦ ?_,
    fun file hfile ↦ ?_⟩, hmore⟩
  · rw [hwritten, h.written, List.append_assoc]
  · have hold : loc ∉ files := fun hloc ↦ hfiles (List.mem_append_left more hloc)
    exact (hkeeps.other loc hold).trans (h.other loc hdirs hold)
  · exact ⟨(h.new loc hloc).1, hgrows.directory (h.new loc hloc).2⟩
  · obtain ⟨n, left, hnamed⟩ := h.named loc hloc
    exact ⟨n, left, hgrows.walkOn_eq_ok (by decide) hnamed⟩
  · have hfile : loc ∈ files := (List.mem_append.1 hloc).elim id (hmore loc)
    obtain ⟨hbefore, hopen, text, hnode⟩ := h.log loc hfile
    obtain ⟨text, hnode⟩ := hgrows.file hnode
    exact ⟨hbefore, hgrows.openNew_eq_ok hopen (by simp [hnode]), text, hnode⟩
  · obtain ⟨hpath, hne⟩ := h.file file (hkeeps.file file hfile)
    exact ⟨hpath, List.append_ne_nil_of_left_ne_nil hne more⟩

end World.Opens

/-- **A directory is made**, with those missing on the way to it, or at least some of them. -/
theorem Session.exists_made (path : String) (w : World) : ∃ result,
    MakesAlong w.disk maxLinks (startOf w.cwd path) (walkNames path) result ∧
      (runIn (makeDirectory path) w).2 =
        { w with disk := result.disk, effects.made := w.effects.made ++ result.made } := by
  have hguard := runIn_ofExcept (guardPath path) w
  have hnothing : w = { w with disk := w.disk, effects.made := w.effects.made ++ [] } := by
    rw [List.append_nil]
  unfold makeDirectory
  cases hpath : guardPath path with
  | error failure =>
    rw [hpath] at hguard
    refine ⟨⟨w.disk, [], .ok ()⟩, .nothing _, ?_⟩
    rw [runIn_bind_of_error hguard]
    exact hnothing
  | ok =>
    rw [hpath] at hguard
    rw [runIn_bind_of_ok hguard, runIn_bind_of_ok (runIn_get w), runIn_bind_of_ok (runIn_set _ w)]
    refine ⟨w.disk.makeDirectory w.cwd path, ?_, ?_⟩
    · unfold FileSystem.makeDirectory
      split
      · exact .nothing _
      · split
        · exact .nothing _
        · exact makesAlong_makeFrom _ _ _ _
    · cases (w.disk.makeDirectory w.cwd path).outcome <;> rfl

namespace Journal

/-- The file that entries are kept in, if they are kept. -/
def logPath (config : JournalConfig) (projectDir : String) (now : Instant) : String :=
  config.logFile.getD (defaultFile projectDir now)

/-- If a log is to be kept, its directory is made and its file is written, unless a choice has been
made before. -/
theorem runIn_configure_of_unasked (hunasked : w.journal.isConfigured = false)
    {config : JournalConfig} (henabled : config.enabled = true) (projectDir : String) :
    runIn (configure (some config) projectDir) w = runIn (do
        makeDirectory (Path.dirname (logPath config projectDir w.now))
        writeFile (logPath config projectDir w.now) (header projectDir w.now)
        modify fun after ↦
          { after with journal.file := some (logPath config projectDir w.now) } : Session Unit)
      { w with journal.isConfigured := true } := by
  unfold configure
  rw [runIn_bind_of_ok (runIn_get w), hunasked]
  simp only [henabled, Bool.false_eq_true, if_false]
  exact runIn_bind_of_ok (runIn_set _ w) _

/-- So it is with a fresh log. -/
theorem runIn_configure_of_enabled (hfresh : w.journal = {}) {config : JournalConfig}
    (henabled : config.enabled = true) (projectDir : String) :
    runIn (configure (some config) projectDir) w = runIn (do
        makeDirectory (Path.dirname (logPath config projectDir w.now))
        writeFile (logPath config projectDir w.now) (header projectDir w.now)
        modify fun after ↦
          { after with journal.file := some (logPath config projectDir w.now) } : Session Unit)
      { w with journal := { isConfigured := true } } := by
  rw [runIn_configure_of_unasked (by rw [hfresh]) henabled, hfresh]

/-- **Opening the debug log** makes directories on the way to its file and writes the file, and
changes nothing else on the disk, whether it ends well or fails. -/
theorem exists_opens (hfresh : w.journal = {}) {config : JournalConfig}
    (henabled : config.enabled = true) (projectDir : String) :
    ∃ dirs files, w.Opens (logPath config projectDir w.now) dirs files
      (runIn (configure (some config) projectDir) w).2 := by
  rw [runIn_configure_of_enabled hfresh henabled]
  set path := logPath config projectDir w.now
  set begun : World := { w with journal := { isConfigured := true } }
  obtain ⟨result, hmakes, hmade⟩ := exists_made (Path.dirname path) begun
  have hopens : w.Opens path result.made []
      { begun with disk := result.disk, effects.made := begun.effects.made ++ result.made } :=
    .of_made hmakes rfl
  rcases hrun : runIn (makeDirectory (Path.dirname path)) begun with ⟨outcome, mid⟩
  rw [hrun] at hmade
  obtain rfl := hmade
  cases outcome with
  | error failure =>
    rw [runIn_bind_of_error hrun]
    exact ⟨_, _, hopens⟩
  | ok =>
    rw [runIn_bind_of_ok hrun, writeFile]
    rcases runIn_changeFile_cases (fun fs cwd ↦ fs.write cwd path (header projectDir w.now)) path _
      with ⟨disk, loc, hwrite, hwritten⟩ | ⟨failure, -, -, hfailed⟩
    · rw [runIn_bind_of_ok hwritten]
      exact ⟨_, _, hopens.write hwrite⟩
    · rw [runIn_bind_of_error hfailed]
      exact ⟨_, _, hopens⟩

/-- Once a log has been opened, entries are kept in its file. -/
theorem file_of_configure {opened : World} (hfresh : w.journal = {}) {config : JournalConfig}
    (henabled : config.enabled = true) {projectDir : String}
    (h : runIn (configure (some config) projectDir) w = (.ok (), opened)) :
    opened.journal.file = some (logPath config projectDir w.now) := by
  rw [runIn_configure_of_enabled hfresh henabled] at h
  obtain ⟨_, mid, -, h⟩ := exists_of_runIn_bind_eq_ok h
  obtain ⟨_, last, -, h⟩ := exists_of_runIn_bind_eq_ok h
  obtain rfl : { last with journal.file := some (logPath config projectDir w.now) } = opened :=
    congrArg Prod.snd h
  rfl

end Journal

end ResourceLocator
