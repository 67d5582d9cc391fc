import ResourceLocator.Proofs.Log.Opening
import ResourceLocator.Proofs.Program.Output
import ResourceLocator.Proofs.Program.Parts

/-!
# What a run changes on the disk

The acts that a run is made of change no more on the disk than the text of the debug log
(`Session.Deed.leads_logsOnly`). So everything else that a run changes it changes when it opens the
log, which it does if the configuration or the arguments ask for one (`Invocation.LogsTo`): it makes
directories on the way to the file of the log. If neither asks for one, the disk stays as it is.
-/

namespace ResourceLocator

open FileSystem Session

variable {α : Type} {P : Location → Prop} {w after opened : World} {path : String}

/-! ### The acts of a run -/

/-- **Every act of a run** changes no more than the text of the debug log. -/
theorem Session.Deed.leads_logsOnly {session : Session α} (h : Deed session) :
    Leads (World.LogsOnly P) session := by
  -- Whatever is only shown or started leaves the disk and the log as they are.
  have hshown : ∀ {w : World} (effects : Effects), effects.made = w.effects.made →
      effects.written = w.effects.written → w.LogsOnly P { w with effects } :=
    fun _ hmade hwritten ↦ .of_same rfl rfl rfl hmade hwritten fun _ h ↦ h
  intro w
  cases h with
  | inquiry h =>
    cases h with
    | ask answer hanswer =>
      rw [hanswer]
      exact .refl w
    | note note => exact Journal.leads_write note w
  | log level message =>
    rw [Console.log, runIn_bind_of_ok (runIn_get w)]
    split
    · exact hshown _ rfl rfl
    · exact .refl w
  | print text => exact hshown _ rfl rfl
  | status label value colour => exact hshown _ rfl rfl
  | execute run =>
    rw [Session.execute, runIn_bind_of_ok (runIn_get w)]
    cases w.replies with
    | nil => exact .of_same rfl rfl rfl rfl rfl fun _ h ↦ h
    | cons reply replies =>
      cases reply <;> exact .of_same rfl rfl rfl rfl rfl fun _ h ↦ h

theorem Session.MadeOf.leads_logsOnly {session : Session α} (h : MadeOf Deed session) :
    Leads (World.LogsOnly P) session :=
  h.leads .trans Deed.leads_logsOnly

/-- Without a file for entries everything on the disk stays as it is. -/
theorem World.LogsOnly.same_of_none (h : w.LogsOnly (fun _ ↦ False) after)
    (hfile : w.journal.file = none) : after.disk = w.disk ∧
      after.effects.made = w.effects.made ∧ after.effects.written = w.effects.written := by
  obtain ⟨hkeeps, -⟩ := h (logsAt_of_none hfile)
  obtain ⟨written, hwritten, hnone⟩ := hkeeps.written
  obtain rfl := List.eq_nil_iff_forall_not_mem.2 hnone
  exact ⟨hkeeps.still fun _ ↦ id, hkeeps.made, hwritten.trans (List.append_nil _)⟩

namespace Program

variable {invocation : Invocation} {options : CommandLine.Options} {action : CommandLine.Action}
  {config : Config} {failure : Failure}

theorem leads_announce (invocation : Invocation) (options : CommandLine.Options) (cwd : String)
    (config : Config) : Leads (World.LogsOnly P) (announce invocation options cwd config) := by
  have hnote := fun isVerbose ↦
    Journal.leads_write (P := P) (startNote (invocation.contextWith options cwd config) isVerbose)
  have hset : ∀ level, Leads (World.LogsOnly P) (Console.setThreshold level) :=
    fun _ _ ↦ .of_same rfl rfl rfl rfl rfl fun _ h ↦ h
  rw [announce]
  cases options.isVerbose || config.verbose with
  | true => exact Leads.bind .trans (fun _ ↦ .of_same rfl rfl rfl rfl rfl fun _ h ↦ h) fun _ ↦
      (hset _).bind .trans fun _ ↦ hnote true
  | false => exact (hset _).bind .trans fun _ ↦ hnote false

/-- A failure ends a run. -/
theorem leads_explain (failure : Failure) :
    Leads (World.LogsOnly P) (explain failure >>= fun _ ↦ pure failure.exitCode) :=
  (MadeOf.bind (madeOf_explain failure) fun _ ↦ madeOf_pure _).leads_logsOnly

/-- What a run does once the debug log is open, if it is to be. -/
theorem logsOnly_runAction_of_opened
    (hload : (Config.load (Path.resolve w.cwd [invocation.directory]) invocation.env).runIn w =
      (.ok config, w))
    (hopening : (opening invocation options w.cwd config).runIn w = (.ok (), opened)) :
    opened.LogsOnly P ((runAction invocation options action).runIn w).2 := by
  rw [runIn_runAction_of_prepare (runIn_prepare_of_opened hload hopening)]
  refine Leads.tryCatch .trans ?_ leads_explain opened
  have hprepared := (leads_announce invocation options w.cwd config).bind .trans fun _ ↦
    (madeOf_pure (invocation.contextWith options w.cwd config)).leads_logsOnly (P := P)
  exact hprepared.bind .trans fun context ↦
    (MadeOf.bind (madeOf_perform context action) fun _ ↦ madeOf_pure _).leads_logsOnly

theorem logsOnly_runAction_of_error
    (h : (prepare invocation options).runIn w = (.error failure, opened)) :
    opened.LogsOnly P ((runAction invocation options action).runIn w).2 := by
  rw [runAction, runIn_tryCatch_of_error (runIn_bind_of_error h _)]
  exact leads_explain failure opened

/-! ### The debug log of a run -/

/-- A run that begins in a world is asked for a command with some options, and loads a
configuration. -/
structure Invocation.Loads (invocation : Invocation) (w : World) (options : CommandLine.Options)
    (config : Config) : Prop where
  /-- It is asked for a command. -/
  request : ∃ action, CommandLine.readRequest invocation.userArguments = .run options action
  /-- The configuration is loaded. -/
  load : ∃ loaded,
    (Config.load (Path.resolve w.cwd [invocation.directory]) invocation.env).runIn w =
      (.ok config, loaded)

/-- A run that begins in a world is asked for no debug log: it loads no configuration, or neither
the configuration nor the arguments ask for a log or for everything to be shown. -/
def Invocation.LogsNothing (invocation : Invocation) (w : World) : Prop :=
  ∀ options config, invocation.Loads w options config →
    config.debug.any (·.enabled) = false ∧ config.verbose = false ∧ options.isVerbose = false

/-- A run that begins in a world is asked for a debug log at a path. -/
inductive Invocation.LogsTo (invocation : Invocation) (w : World) : String → Prop where
  /-- The configuration asks for a log, and may say where. -/
  | configured {options : CommandLine.Options} {config : Config} {journal : JournalConfig}
      (h : invocation.Loads w options config) (hdebug : config.debug = some journal)
      (henabled : journal.enabled = true) : LogsTo invocation w
        (journal.logFile.getD
          (Journal.defaultFile (Path.resolve w.cwd [invocation.directory]) w.now))
  /-- Only everything is to be shown. -/
  | verbose {options : CommandLine.Options} {config : Config}
      (h : invocation.Loads w options config) (hdebug : config.debug.any (·.enabled) = false)
      (hverbose : config.verbose = true ∨ options.isVerbose = true) : LogsTo invocation w
        (Journal.defaultFile (Path.resolve w.cwd [invocation.directory]) w.now)

/-- The options and the configuration of a run are determined. -/
theorem Invocation.Loads.unique {options' : CommandLine.Options} {config' : Config}
    (h : invocation.Loads w options config) (h' : invocation.Loads w options' config') :
    options' = options ∧ config' = config := by
  obtain ⟨⟨_, hrequest⟩, _, hload⟩ := h
  obtain ⟨⟨_, hrequest'⟩, _, hload'⟩ := h'
  cases hrequest'.symm.trans hrequest
  cases hload'.symm.trans hload
  exact ⟨rfl, rfl⟩

/-- A log is asked for, or none is. -/
theorem Invocation.Loads.logs_cases (h : invocation.Loads w options config) :
    (¬invocation.LogsNothing w ∧ ∃ journal,
      journalConfig config (options.isVerbose || config.verbose) = some journal ∧
        journal.enabled = true ∧ invocation.LogsTo w
          (Journal.logPath journal (Path.resolve w.cwd [invocation.directory]) w.now)) ∨
    invocation.LogsNothing w ∧
      ∀ journal ∈ journalConfig config (options.isVerbose || config.verbose),
        journal.enabled = false := by
  unfold journalConfig
  cases hdebug : config.debug.any (·.enabled) with
  | true =>
    obtain ⟨journal, hjournal, henabled⟩ := (Option.any_eq_true _ _).1 hdebug
    refine .inl ⟨fun hnothing ↦ ?_, journal, ?_, henabled, .configured h hjournal henabled⟩
    · cases hdebug.symm.trans (hnothing options config h).1
    · rw [Bool.not_true, Bool.and_false, hjournal]
      rfl
  | false =>
    cases hverbose : options.isVerbose || config.verbose with
    | true =>
      have hasked := (Bool.or_eq_true_iff.1 hverbose).symm
      have hpath : ∀ dir, Journal.logPath ⟨true, none⟩ dir w.now = Journal.defaultFile dir w.now :=
        fun _ ↦ rfl
      refine .inl ⟨fun hnothing ↦ ?_, ⟨true, none⟩, rfl, rfl, ?_⟩
      · obtain ⟨-, hconfig, hoptions⟩ := hnothing options config h
        simp [hconfig, hoptions] at hverbose
      · rw [hpath]
        exact .verbose h hdebug hasked
    | false =>
      obtain ⟨hoptions, hconfig⟩ := Bool.or_eq_false_iff.1 hverbose
      refine .inr ⟨fun options' config' h' ↦ ?_, (Option.any_eq_false _ _).1 hdebug⟩
      obtain ⟨rfl, rfl⟩ := h.unique h'
      exact ⟨hdebug, hconfig, hoptions⟩

/-- Without a command no log is asked for. -/
theorem Invocation.logsNothing_of_not_run
    (h : ∀ options action, CommandLine.readRequest invocation.userArguments ≠ .run options action) :
    invocation.LogsNothing w :=
  fun _ _ hloads ↦ hloads.request.elim fun action hrequest ↦ absurd hrequest (h _ action)

/-- Without a configuration no log is asked for. -/
theorem Invocation.logsNothing_of_load_error {loaded : World}
    (h : (Config.load (Path.resolve w.cwd [invocation.directory]) invocation.env).runIn w =
      (.error failure, loaded)) : invocation.LogsNothing w := by
  rintro options config ⟨-, loaded, hload⟩
  cases h.symm.trans hload

/-- A command for which a log is asked for opens it, and keeps its entries there. -/
theorem exists_opens_runAction (hfresh : w.journal = {}) {journal : JournalConfig}
    (hload : (Config.load (Path.resolve w.cwd [invocation.directory]) invocation.env).runIn w =
      (.ok config, w))
    (hjournal : journalConfig config (options.isVerbose || config.verbose) = some journal)
    (henabled : journal.enabled = true) (action : CommandLine.Action) :
    ∃ dirs files, w.Opens
      (Journal.logPath journal (Path.resolve w.cwd [invocation.directory]) w.now) dirs files
      ((runAction invocation options action).runIn w).2 := by
  obtain ⟨dirs, files, hopens⟩ := Journal.exists_opens hfresh henabled
    (Path.resolve w.cwd [invocation.directory])
  have hopening : opening invocation options w.cwd config = Journal.configure (some journal)
      (Path.resolve w.cwd [invocation.directory]) := by rw [opening, hjournal]
  rw [← hopening] at hopens
  have hafter : ((opening invocation options w.cwd config).runIn w).2.LogsOnly (· ∈ files)
      ((runAction invocation options action).runIn w).2 := by
    rcases hrun : (opening invocation options w.cwd config).runIn w with ⟨outcome, opened⟩
    cases outcome with
    | ok => exact logsOnly_runAction_of_opened hload hrun
    | error failure =>
      exact logsOnly_runAction_of_error (runIn_prepare_of_opening_error hload hrun)
  obtain ⟨more, hkept, -⟩ := hopens.keeps (hafter hopens.logsAt).1
  exact ⟨dirs, files ++ more, hkept⟩

/-- A command for which none is asked for leaves the disk as it is. -/
theorem same_runAction (hfresh : w.journal = {})
    (hload : (Config.load (Path.resolve w.cwd [invocation.directory]) invocation.env).runIn w =
      (.ok config, w))
    (hjournal : ∀ journal ∈ journalConfig config (options.isVerbose || config.verbose),
      journal.enabled = false) (action : CommandLine.Action) :
    let after := ((runAction invocation options action).runIn w).2
    after.disk = w.disk ∧ after.effects.made = w.effects.made ∧
      after.effects.written = w.effects.written :=
  have hopening := Journal.runIn_configure_of_not_enabled hfresh hjournal
    (Path.resolve w.cwd [invocation.directory])
  (logsOnly_runAction_of_opened hload hopening).same_of_none rfl

/-- **A run changes nothing on the disk but the debug log.** If no log is asked for, the disk stays
as it is. Otherwise directories are made on the way to the file of the log, and this one file is
written; everything else is the same after the run as before. -/
theorem run_changes_only_log (invocation : Invocation) (hfresh : w.journal = {}) :
    let after := ((run invocation).runIn w).2
    (invocation.LogsNothing w → after.disk = w.disk ∧
      after.effects.made = w.effects.made ∧ after.effects.written = w.effects.written) ∧
    (¬invocation.LogsNothing w → ∃ path, invocation.LogsTo w path ∧
      ∃ dirs files, w.Opens path dirs files after ∧
        ∀ loc ∈ files, ∀ other ∈ files, loc = other) := by
  intro after
  rcases hrequest : CommandLine.readRequest invocation.userArguments with text | complaint |
    ⟨options, action⟩
  · have hafter : after = { w with effects.output := w.effects.output ++ text } := by
      simp only [after, run, hrequest]
      rfl
    rw [hafter]
    exact ⟨fun _ ↦ ⟨rfl, rfl, rfl⟩, absurd (Invocation.logsNothing_of_not_run (by simp [hrequest]))⟩
  · have hafter : after = { w with effects.errors := w.effects.errors ++ complaint.message } := by
      simp only [after, run, hrequest]
      rfl
    rw [hafter]
    exact ⟨fun _ ↦ ⟨rfl, rfl, rfl⟩, absurd (Invocation.logsNothing_of_not_run (by simp [hrequest]))⟩
  · have hafter : after = ((runAction invocation options action).runIn w).2 :=
      congrArg (fun session ↦ (runIn session w).2) (run_of_request hrequest)
    rw [hafter]
    rcases hload : (Config.load (Path.resolve w.cwd [invocation.directory]) invocation.env).runIn w
      with ⟨failure | config, loaded⟩
    · have hloaded : w.LogsOnly (fun _ ↦ False) loaded := by
        have h := (Config.madeOf_load (Path.resolve w.cwd [invocation.directory])
          invocation.env).leads_logsOnly (P := fun _ ↦ False) w
        rwa [hload] at h
      have hfile : w.journal.file = none := by rw [hfresh]
      exact ⟨fun _ ↦ (hloaded.trans (logsOnly_runAction_of_error
          (runIn_prepare_of_load_error hload))).same_of_none hfile,
        absurd (Invocation.logsNothing_of_load_error hload)⟩
    · obtain rfl := runIn_load_still (isQuiet_of_journal hfresh) hload
      have hloads : invocation.Loads loaded options config := ⟨⟨action, hrequest⟩, loaded, hload⟩
      rcases hloads.logs_cases with ⟨hlogs, journal, hjournal, henabled, hpath⟩ |
        ⟨hnothing, hjournal⟩
      · obtain ⟨dirs, files, hopens⟩ :=
          exists_opens_runAction hfresh hload hjournal henabled action
        exact ⟨fun hnothing ↦ absurd hnothing hlogs, fun _ ↦
          ⟨_, hpath, dirs, files, hopens, fun _ hloc _ hother ↦ hopens.unique hloc hother⟩⟩
      · exact ⟨fun _ ↦ same_runAction hfresh hload hjournal action, absurd hnothing⟩

section Small

/-- A run that is asked for the variables, and to show everything. -/
def showingAll : Invocation := ⟨["node", "/r", "--verbose", "env"], Config.twoVariables, "/p"⟩

theorem readRequest_showingAll :
    CommandLine.readRequest showingAll.userArguments = .run ⟨true, [], none⟩ .env := by
  have hrequest : CommandLine.readRequest ["--verbose", "env"] = .run ⟨true, [], none⟩ .env := by
    cbv
  exact hrequest

theorem loads_showingAll :
    showingAll.Loads emptyWorld ⟨true, [], none⟩ Config.ofTwoVariables := by
  have hdirectory : Path.resolve emptyWorld.cwd ["/p"] = "/p" := by decide
  refine ⟨⟨.env, readRequest_showingAll⟩, ?_⟩
  rw [show showingAll.directory = "/p" from rfl, hdirectory]
  exact runIn_load_of_ok Config.ofDisk_twoVariables

end Small

/-- To show everything is to open a debug log, and to change nothing else. -/
theorem run_changes_only_log_showingAll :
    emptyWorld.journal = {} ∧ ¬showingAll.LogsNothing emptyWorld ∧
    ∃ path, showingAll.LogsTo emptyWorld path ∧ ∃ dirs files,
      emptyWorld.Opens path dirs files ((run showingAll).runIn emptyWorld).2 ∧
        ∀ loc ∈ files, ∀ other ∈ files, loc = other := by
  have hlogs : ¬showingAll.LogsNothing emptyWorld := fun hnothing ↦
    nomatch (hnothing _ _ loads_showingAll).2.2
  exact ⟨rfl, hlogs, (run_changes_only_log showingAll (w := emptyWorld) rfl).2 hlogs⟩

end Program

end ResourceLocator
