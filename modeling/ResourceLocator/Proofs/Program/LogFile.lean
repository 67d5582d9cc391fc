import ResourceLocator.Proofs.Program.Verbose

/-!
# The file that a configuration names for the debug log

A configuration may name the file of the debug log. If it also asks for the log, a run opens the
file that is named, and whatever it changes on the disk is on the way to that file
(`World.Opens.leadsThrough`). If it does not ask for the log, and nobody asks for everything to be
shown, nothing is opened. But if everything is to be shown, a log is opened that the configuration
does not ask for, and then the name is not looked at: the log goes to the file that is used when
none is named (`Program.run_keeps_log`, `Program.run_ignores_log_file`).
-/

namespace ResourceLocator

open FileSystem Session

variable {w after : World} {path : String} {dirs files : List Location} {loc : Location}

/-- A path leads to a location, or through it. -/
def World.LeadsThrough (w : World) (path : String) (loc : Location) : Prop :=
  w.disk.openNew w.cwd path = .ok loc ∨ ∃ n left, w.disk.walkOn .followLink maxLinks
    (startOf w.cwd (Path.dirname path)) ((walkNames (Path.dirname path)).take n) = .ok (loc, left)

/-- **What is changed is on the way to the file that is opened.** -/
theorem World.Opens.leadsThrough (h : w.Opens path dirs files after)
    (hchanged : after.disk.node? loc ≠ w.disk.node? loc) : after.LeadsThrough path loc := by
  rw [LeadsThrough, h.cwd]
  by_cases hdirs : loc ∈ dirs
  · exact .inr (h.named loc hdirs)
  by_cases hfiles : loc ∈ files
  · exact .inl (h.log loc hfiles).2.1
  · exact absurd (h.other loc hdirs hfiles) hchanged

namespace Program

variable {invocation : Invocation} {options : CommandLine.Options} {config : Config}
  {journal : JournalConfig} {file : String}

theorem journalConfig_of_enabled (hdebug : config.debug = some journal)
    (henabled : journal.enabled = true) (isVerbose : Bool) :
    journalConfig config isVerbose = some journal := by
  simp [journalConfig, hdebug, henabled]

theorem journalConfig_of_not_enabled (hdebug : config.debug = some journal)
    (henabled : journal.enabled = false) (isVerbose : Bool) :
    journalConfig config isVerbose = if isVerbose then some ⟨true, none⟩ else some journal := by
  simp [journalConfig, hdebug, henabled]

/-- **Where a run keeps its log if the configuration names a file.** If the configuration asks for
the log, it is kept there; if neither it nor the arguments ask for anything, nothing is kept; and if
only everything is to be shown, the log is not kept there. -/
theorem run_keeps_log (hfresh : w.journal = {}) (h : invocation.Loads w options config)
    (hdebug : config.debug = some journal) (hfile : journal.logFile = some file) :
    let after := ((run invocation).runIn w).2
    let isVerbose := options.isVerbose || config.verbose
    (journal.enabled = true → (∃ dirs files, w.Opens file dirs files after) ∧
      ∀ loc, after.disk.node? loc ≠ w.disk.node? loc → after.LeadsThrough file loc) ∧
    (journal.enabled = false → isVerbose = false → after.disk = w.disk ∧
      after.effects.made = w.effects.made ∧ after.effects.written = w.effects.written) ∧
    (journal.enabled = false → isVerbose = true → ∃ dirs files,
      w.Opens (Journal.defaultFile (Path.resolve w.cwd [invocation.directory]) w.now) dirs files
        after) := by
  intro after isVerbose
  obtain ⟨⟨action, hrequest⟩, loaded, hload⟩ := h
  obtain rfl := runIn_load_still (isQuiet_of_journal hfresh) hload
  have hafter : after = ((runAction invocation options action).runIn loaded).2 :=
    congrArg (fun session ↦ (runIn session loaded).2) (run_of_request hrequest)
  rw [hafter]
  refine ⟨fun henabled ↦ ?_, fun henabled hplain ↦ ?_, fun henabled hverbose ↦ ?_⟩
  · obtain ⟨dirs, files, hopens⟩ := exists_opens_runAction hfresh hload
      (journalConfig_of_enabled hdebug henabled _) henabled action
    rw [Journal.logPath, hfile] at hopens
    exact ⟨⟨dirs, files, hopens⟩, fun loc ↦ hopens.leadsThrough⟩
  · have hnamed : journalConfig config (options.isVerbose || config.verbose) = some journal := by
      rw [journalConfig_of_not_enabled hdebug henabled]
      exact if_neg (Bool.not_eq_true _ ▸ hplain)
    refine same_runAction hfresh hload (fun kept hkept ↦ ?_) action
    obtain rfl : journal = kept := Option.some.inj (hnamed.symm.trans hkept)
    exact henabled
  · have hunnamed : journalConfig config (options.isVerbose || config.verbose) =
        some ⟨true, none⟩ := by
      rw [journalConfig_of_not_enabled hdebug henabled]
      exact if_pos hverbose
    have hpath : ∀ dir, Journal.defaultFile dir loaded.now = Journal.logPath ⟨true, none⟩ dir
        loaded.now := fun _ ↦ rfl
    rw [hpath]
    exact exists_opens_runAction hfresh hload hunnamed rfl action

section Small

/-- Variables that name a file for the debug log, and maybe more. -/
def logVariables (more : List (String × String)) : Environment :=
  .ofList ([("RELOC_PACKAGE", "tool"), ("RELOC_API_VERSION", "2"),
    ("RELOC_DEBUG_LOG_FILE", "/log/reloc.log")] ++ more)

/-- The configuration that they make. -/
def ofLogVariables (enabled : Bool) : Config :=
  { Config.ofTwoVariables with debug := some ⟨enabled, some "/log/reloc.log"⟩ }

theorem ofDisk_logVariables :
    Config.ofDisk .empty "/" "/home" "/p" (logVariables []) = .ok (ofLogVariables false) := by
  have hlower := Config.readValid_of_not_there (Config.not_isThere_home (logVariables []) rfl)
  have hupper := Config.readValid_of_not_there Config.not_isThere_project
  rw [Config.ofDisk, Config.mergedFields_of_accepted hlower hupper]
  rfl

theorem ofDisk_logVariables_enabled : Config.ofDisk .empty "/" "/home" "/p"
      (logVariables [("RELOC_DEBUG_ENABLED", "true")]) = .ok (ofLogVariables true) := by
  have hlower := Config.readValid_of_not_there
    (Config.not_isThere_home (logVariables [("RELOC_DEBUG_ENABLED", "true")]) rfl)
  have hupper := Config.readValid_of_not_there Config.not_isThere_project
  rw [Config.ofDisk, Config.mergedFields_of_accepted hlower hupper]
  rfl

/-- A run that is asked for the variables, and to show everything, with a file named for the debug
log. -/
def showingAllLogged : Invocation := ⟨["node", "/r", "--verbose", "env"], logVariables [], "/p"⟩

theorem loads_showingAllLogged :
    showingAllLogged.Loads emptyWorld ⟨true, [], none⟩ (ofLogVariables false) := by
  have hdirectory : Path.resolve emptyWorld.cwd ["/p"] = "/p" := by decide
  refine ⟨⟨.env, readRequest_showingAll⟩, ?_⟩
  rw [show showingAllLogged.directory = "/p" from rfl, hdirectory]
  exact runIn_load_of_ok ofDisk_logVariables

end Small

/-- A file that is named is opened if the log is asked for. -/
theorem run_keeps_log_enabled :
    let invocation := showingVariables (logVariables [("RELOC_DEBUG_ENABLED", "true")])
    emptyWorld.journal = {} ∧
    invocation.Loads emptyWorld ⟨false, [], none⟩ (ofLogVariables true) ∧
    (ofLogVariables true).debug = some ⟨true, some "/log/reloc.log"⟩ ∧
    ∃ dirs files, emptyWorld.Opens "/log/reloc.log" dirs files
      ((run invocation).runIn emptyWorld).2 := by
  intro invocation
  have hloads : invocation.Loads emptyWorld ⟨false, [], none⟩ (ofLogVariables true) := by
    have hdirectory : Path.resolve emptyWorld.cwd ["/p"] = "/p" := by decide
    refine ⟨⟨.env, readRequest_showingVariables _⟩, ?_⟩
    rw [show invocation.directory = "/p" from rfl, hdirectory]
    exact runIn_load_of_ok ofDisk_logVariables_enabled
  exact ⟨rfl, hloads, rfl, ((run_keeps_log rfl hloads rfl rfl).1 rfl).1⟩

/-- **A run that is asked to show everything need not keep its log in the file that the
configuration names**: it makes another file, and not the one that is named. -/
theorem run_ignores_log_file :
    showingAllLogged.Loads emptyWorld ⟨true, [], none⟩ (ofLogVariables false) ∧
    (ofLogVariables false).debug = some ⟨false, some "/log/reloc.log"⟩ ∧
    let after := ((run showingAllLogged).runIn emptyWorld).2
    (∃ text, after.disk.node? ["p", ".reloc", "logs", firstLog] = some (.file text false)) ∧
      after.disk.node? ["log", "reloc.log"] = none := by
  refine ⟨loads_showingAllLogged, rfl, ?_⟩
  intro after
  obtain ⟨opened, text, hopening, hdisk⟩ := exists_opened_showingPathVerbosely
  replace hopening : (opening showingAllLogged ⟨true, [], none⟩ emptyWorld.cwd
      (ofLogVariables false)).runIn emptyWorld = (.ok (), opened) := hopening
  obtain ⟨loaded, hload⟩ := loads_showingAllLogged.load
  have hstill : loaded = emptyWorld := runIn_load_still (isQuiet_of_journal rfl) hload
  rw [hstill] at hload
  have hafter : after = ((runAction showingAllLogged ⟨true, [], none⟩ .env).runIn emptyWorld).2 :=
    congrArg (fun session ↦ (runIn session emptyWorld).2) (run_of_request readRequest_showingAll)
  have hlogs : opened.LogsAt opened.LogsIn :=
    logsAt_of_opening (w := emptyWorld) rfl hopening
  have hshape : FileSystem.SameShape opened.disk after.disk := by
    rw [hafter]
    exact (logsOnly_runAction_of_opened hload hopening hlogs).1.shape
  rw [hdisk] at hshape
  constructor
  · exact hshape.grows.file (node?_set_self ..)
  · have hnone := hshape ["log", "reloc.log"]
    rw [node?_set_of_ne _ _ (by decide)] at hnone
    exact Option.map_eq_none_iff.1 hnone

end Program

end ResourceLocator
