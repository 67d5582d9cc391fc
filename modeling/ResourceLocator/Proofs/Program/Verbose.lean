import ResourceLocator.Proofs.CommandLine.Settings
import ResourceLocator.Proofs.Program.Beside
import ResourceLocator.Proofs.Program.Frame

/-!
# Asking for everything to be shown

A query that is asked to show everything opens a debug log where none would be opened otherwise. On
the disk more may stand then (`Program.widens_of_opening`), and if the log cannot be opened, the
run ends with a general failure. If the log can be opened, the query comes to the same and has the
same output as long as it overlooks what has been made for the log (`Program.run_verbose`).
-/

namespace ResourceLocator

open Session World

variable {w loaded opened opened' started started' : World}

/-! ### Opening a log -/

namespace Journal

/-- Once the log has been configured, the file for entries, if there is one, stands. -/
theorem logsAt_configure (hfresh : w.journal = {}) (config : Option JournalConfig)
    (projectDir : String) : (runIn (configure config projectDir) w).2.LogsAt
      (runIn (configure config projectDir) w).2.LogsIn := by
  by_cases henabled : ∃ journal, config = some journal ∧ journal.enabled = true
  · obtain ⟨journal, rfl, henabled⟩ := henabled
    obtain ⟨_, _, hopens⟩ := exists_opens hfresh henabled projectDir
    exact hopens.logsAt.logsIn
  · rw [runIn_configure_of_not_enabled hfresh fun journal hjournal ↦ ?_]
    · exact World.logsAt_of_none rfl
    · exact Bool.eq_false_iff.2 fun h ↦ henabled ⟨journal, hjournal, h⟩

/-- **To open a log is to widen the world**: in it stands all that stands where none is opened. -/
theorem widens_of_configure (hfresh : w.journal = {}) {journal : JournalConfig}
    (henabled : journal.enabled = true) {projectDir : String}
    (h : runIn (configure (some journal) projectDir) w = (.ok (), opened')) :
    World.Widens { w with journal := { isConfigured := true } } opened' := by
  obtain ⟨dirs, files, hopens⟩ := exists_opens hfresh henabled projectDir
  rw [h] at hopens
  have hreported := preserves_configure (some journal) projectDir w
  rw [h] at hreported
  refine ⟨hopens.cwd, hopens.colours, hreported, hopens.grows, fun loc node hlog hnode ↦ ?_,
    fun loc hlog ↦ ?_⟩
  · have hdirs : loc ∉ dirs := fun hloc ↦ by cases hnode.symm.trans (hopens.new loc hloc).1
    have hfiles : loc ∉ files := fun hloc ↦ hlog
      ⟨_, file_of_configure hfresh henabled h, hopens.cwd ▸ (hopens.log loc hloc).2.1⟩
    exact (hopens.other loc hdirs hfiles).trans hnode
  · obtain ⟨file, hfile, -⟩ := hlog
    cases hfile

end Journal

namespace Program

variable {invocation : Invocation} {options : CommandLine.Options} {action : CommandLine.Action}
  {context : Context} {config : Config} {failure : Failure}

/-- To show everything is to keep the log that is kept anyway, or to keep one instead of none. -/
theorem journalConfig_cases (config : Config) (isVerbose : Bool) :
    journalConfig config true = journalConfig config isVerbose ∨
    (∀ journal ∈ journalConfig config isVerbose, journal.enabled = false) ∧
      journalConfig config true = some ⟨true, none⟩ := by
  cases isVerbose with
  | true => exact .inl rfl
  | false =>
    unfold journalConfig
    cases hdebug : config.debug.any (·.enabled) with
    | true => exact .inl rfl
    | false => exact .inr ⟨(Option.any_eq_false _ _).1 hdebug, rfl⟩

theorem logsAt_of_opening (hfresh : w.journal = {})
    (hopening : (opening invocation options w.cwd config).runIn w = (.ok (), opened)) :
    opened.LogsAt opened.LogsIn := by
  have hlogs := Journal.logsAt_configure hfresh
    (journalConfig config (options.isVerbose || config.verbose))
    (Path.resolve w.cwd [invocation.directory])
  rw [opening] at hopening
  rwa [hopening] at hlogs

/-- **A run that shows everything goes on in a wider world.** -/
theorem widens_of_opening (hfresh : w.journal = {})
    (hopening : (opening invocation options w.cwd config).runIn w = (.ok (), opened))
    (hverbose : (opening invocation { options with isVerbose := true } w.cwd config).runIn w =
      (.ok (), opened')) : opened.Widens opened' := by
  rw [opening] at hopening hverbose
  rw [Bool.true_or] at hverbose
  rcases journalConfig_cases config (options.isVerbose || config.verbose) with
    hsame | ⟨hnone, hsome⟩
  · rw [hsame, hopening] at hverbose
    obtain rfl : opened = opened' := congrArg Prod.snd hverbose
    exact .refl opened
  · rw [Journal.runIn_configure_of_not_enabled hfresh hnone] at hopening
    rw [hsome] at hverbose
    obtain rfl := congrArg Prod.snd hopening
    exact Journal.widens_of_configure hfresh rfl hverbose

/-! ### Starting a command -/

/-- A command starts as soon as the log is open, and until then only an entry is made. -/
theorem exists_started (hfresh : w.journal = {})
    (hload : (Config.load (Path.resolve w.cwd [invocation.directory]) invocation.env).runIn w =
      (.ok config, w))
    (hopening : (opening invocation options w.cwd config).runIn w = (.ok (), opened)) :
    ∃ started, (prepare invocation options).runIn w =
        (.ok (invocation.contextWith options w.cwd config), started) ∧
      opened.LoggedSince started ∧ started.reported = opened.reported := by
  obtain ⟨started, hprepare⟩ := exists_runIn_prepare hload hopening
  have hrest : runIn (announce invocation options w.cwd config >>= fun _ ↦
      pure (invocation.contextWith options w.cwd config)) opened =
        (.ok (invocation.contextWith options w.cwd config), started) := by
    rw [← hprepare, runIn_prepare_of_opened hload hopening]
  obtain ⟨_, mid, hannounce, hpure⟩ := exists_of_runIn_bind_eq_ok hrest
  obtain rfl : mid = started := congrArg Prod.snd hpure
  have hlogged := leads_announce invocation options w.cwd config opened
    (logsAt_of_opening hfresh hopening)
  rw [hannounce] at hlogged
  have hreported : mid.reported = w.reported :=
    (preserves_prepare invocation options).eq_of_runIn hprepare
  have hunreported : opened.reported = w.reported :=
    (Journal.preserves_configure _ _).eq_of_runIn hopening
  exact ⟨mid, hprepare, ⟨hlogged.1, hlogged.2⟩, hreported.trans hunreported.symm⟩

/-- A failure to open the log is a general one, and leaves the output as it is. -/
theorem runAction_of_opening_error
    (hload : (Config.load (Path.resolve w.cwd [invocation.directory]) invocation.env).runIn w =
      (.ok config, loaded))
    (hopening : (opening invocation options w.cwd config).runIn loaded = (.error failure, opened))
    (action : CommandLine.Action) : ((runAction invocation options action).runIn w).1 = .ok 1 ∧
      ((runAction invocation options action).runIn w).2.output = w.output := by
  have hprepare : (prepare invocation options).runIn w = (.error failure, opened) :=
    runIn_prepare_of_opening_error hload hopening
  have houtcome : ((runAction invocation options action).runIn w).1 = .ok 1 := by
    rw [outcome_runAction_of_error hprepare]
    exact statusOf_of_isGeneral (Journal.failsOnly_configure _ _ loaded failure opened hopening)
  refine ⟨houtcome, (output_runAction invocation options action w).resolve_left fun h ↦ ?_⟩
  cases houtcome.symm.trans h

/-- **A query that is started in two worlds comes to the same and shows the same**, if in the second
one more stands which it overlooks. -/
theorem sameResult_runAction (hfresh : w.journal = {})
    (hload : (Config.load (Path.resolve w.cwd [invocation.directory]) invocation.env).runIn w =
      (.ok config, w))
    (hopening : (opening invocation options w.cwd config).runIn w = (.ok (), opened))
    (hverbose : (opening invocation { options with isVerbose := true } w.cwd config).runIn w =
      (.ok (), opened'))
    (hquery : ∀ args, action ≠ .trace args)
    (hoverlooks : (invocation.contextWith options w.cwd config).Overlooks action opened opened') :
    SameResult ((runAction invocation options action).runIn w)
      ((runAction invocation { options with isVerbose := true } action).runIn w) := by
  have hwidens := widens_of_opening hfresh hopening hverbose
  obtain ⟨started, hprepare, hfirst, hreported⟩ := exists_started hfresh hload hopening
  obtain ⟨started', hprepare', hsecond, hreported'⟩ := exists_started hfresh hload hverbose
  have hbeside : Beside opened opened' started started' :=
    ⟨hfirst, hsecond, hreported'.trans (hwidens.reported.trans hreported.symm)⟩
  have hperform := sameResult_perform hwidens hbeside hquery hoverlooks
    (logsAt_of_opening hfresh hopening) hreported
  refine ⟨?_, ?_⟩
  · rw [outcome_runAction_of_ok hprepare', outcome_runAction_of_ok hprepare]
    exact congrArg exitOf hperform.1
  · rw [output_runAction_of_ok hprepare', output_runAction_of_ok hprepare]
    exact hperform.2

/-! ### Runs -/

/-- If the configuration asks for everything to be shown, the arguments need not. -/
theorem runIn_prepare_verbose
    (hload : (Config.load (Path.resolve w.cwd [invocation.directory]) invocation.env).runIn w =
      (.ok config, loaded)) (hverbose : config.verbose = true) :
    (prepare invocation { options with isVerbose := true }).runIn w =
      (prepare invocation options).runIn w := by
  rw [runIn_prepare_of_load hload, runIn_prepare_of_load hload]
  simp only [opening, announce, hverbose, Bool.or_true]
  rfl

/-- A log that cannot be opened anyway cannot be opened to show everything either. -/
theorem sameResult_of_opening_error (hfresh : w.journal = {})
    (hload : (Config.load (Path.resolve w.cwd [invocation.directory]) invocation.env).runIn w =
      (.ok config, w))
    (hopening : (opening invocation options w.cwd config).runIn w = (.error failure, opened)) :
    SameResult ((runAction invocation options action).runIn w)
      ((runAction invocation { options with isVerbose := true } action).runIn w) := by
  have hsame : opening invocation { options with isVerbose := true } w.cwd config =
      opening invocation options w.cwd config := by
    rcases journalConfig_cases config (options.isVerbose || config.verbose) with hsame | ⟨hnone, -⟩
    · rw [opening, opening, Bool.true_or, hsame]
    · rw [opening, Journal.runIn_configure_of_not_enabled hfresh hnone] at hopening
      cases hopening
  obtain ⟨houtcome, houtput⟩ := runAction_of_opening_error hload hopening action
  obtain ⟨houtcome', houtput'⟩ := runAction_of_opening_error hload (hsame ▸ hopening) action
  exact ⟨houtcome'.trans houtcome.symm, houtput'.trans houtput.symm⟩

section Query

variable {before after : List String} {settings : List CommandLine.Setting}

/-- **A query that shows everything comes to the same** and has the same output, unless no log can
be opened for it, which is a general failure without output, or it finds what has been made for the
log. -/
theorem run_verbose (hbefore : CommandLine.Mixes before settings [])
    (hrequest : CommandLine.readRequest (before ++ after) = .run options action)
    (hquery : ∀ args, action ≠ .trace args) (hfresh : w.journal = {})
    (node entry : String) (env : Environment) (directory : String) :
    let plain : Invocation := ⟨node :: entry :: (before ++ after), env, directory⟩
    let verbose : Invocation := ⟨node :: entry :: (before ++ "--verbose" :: after), env, directory⟩
    let shown : CommandLine.Options := { options with isVerbose := true }
    let loading := Config.load (Path.resolve w.cwd [directory]) env
    let Same := SameResult ((run plain).runIn w) ((run verbose).runIn w)
    CommandLine.readRequest verbose.userArguments = .run shown action ∧
    (∀ failure loaded, loading.runIn w = (.error failure, loaded) → Same) ∧
    ∀ config loaded, loading.runIn w = (.ok config, loaded) →
      (config.verbose = true → Same) ∧
      (∀ failure opened, (opening plain options w.cwd config).runIn loaded =
        (.error failure, opened) → Same) ∧
      (∀ failure opened, (opening verbose shown w.cwd config).runIn loaded =
        (.error failure, opened) →
          ((run verbose).runIn w).1 = .ok 1 ∧ ((run verbose).runIn w).2.output = w.output) ∧
      ∀ opened opened', (opening plain options w.cwd config).runIn loaded = (.ok (), opened) →
        (opening verbose shown w.cwd config).runIn loaded = (.ok (), opened') →
          (plain.contextWith options w.cwd config).Overlooks action opened opened' → Same := by
  intro plain verbose shown loading Same
  have hasked : CommandLine.readRequest verbose.userArguments = .run shown action :=
    CommandLine.readRequest_verbose hbefore hrequest
  -- The other arguments of the process are not used, so the run can be told from the plain one.
  have hruns : run plain = runAction plain options action := run_of_request hrequest
  have hruns' : run verbose = runAction plain shown action := by
    rw [run_of_request hasked, runAction, runAction,
      @prepare_congr plain verbose rfl rfl rfl shown]
  have hsame : SameResult ((runAction plain options action).runIn w)
      ((runAction plain shown action).runIn w) → Same := by
    intro h
    simpa only [Same, hruns, hruns'] using h
  refine ⟨hasked, fun failure loaded hload ↦ hsame ?_, fun config loaded hload ↦ ?_⟩
  · have hprepare : ∀ given, (prepare plain given).runIn w = (.error failure, loaded) :=
      fun _ ↦ runIn_prepare_of_load_error hload
    rw [runIn_runAction_of_prepare ((hprepare shown).trans (hprepare options).symm)]
    exact ⟨rfl, rfl⟩
  · obtain rfl := runIn_load_still (isQuiet_of_journal hfresh) hload
    have hloaded : (Config.load (Path.resolve loaded.cwd [plain.directory]) plain.env).runIn
        loaded = (.ok config, loaded) := hload
    refine ⟨fun hverbose ↦ hsame ?_, fun failure opened hopening ↦ hsame ?_,
      fun failure opened hopening ↦ ?_, fun opened opened' hopening hopening' hoverlooks ↦ hsame ?_⟩
    · rw [runIn_runAction_of_prepare (runIn_prepare_verbose hloaded hverbose)]
      exact ⟨rfl, rfl⟩
    · exact sameResult_of_opening_error hfresh hloaded hopening
    · rw [hruns']
      exact runAction_of_opening_error hloaded hopening action
    · exact sameResult_runAction hfresh hloaded hopening hopening' hquery hoverlooks

end Query

section Small

/-- The directories made for a log in `/p`. -/
def logDirectories : FileSystem :=
  ⟨[(["p", ".reloc", "logs"], .directory false), (["p", ".reloc"], .directory false),
    (["p"], .directory false)]⟩

/-- The name of the first log of all. -/
def firstLog : String := "debug-1970-01-01T00-00-00.log"

theorem openNew_logDirectories : logDirectories.openNew "/" ("/p/.reloc/logs/" ++ firstLog) =
    .ok ["p", ".reloc", "logs", firstLog] := by
  have hnames : FileSystem.walkNames ("/p/.reloc/logs/" ++ firstLog) =
      ["p", ".reloc", "logs", firstLog] := by decide
  have hshort : ∀ name ∈ ["p", ".reloc", "logs", firstLog],
      FileSystem.nameIsTooLong name = false ∧ name ≠ "." ∧ name ≠ ".." := by decide
  have hlong : FileSystem.pathIsTooLong ("/p/.reloc/logs/" ++ firstLog) = false := by decide
  have hslash : Path.endsInSlash ("/p/.reloc/logs/" ++ firstLog) = false := by decide
  have hstart : FileSystem.startOf "/" ("/p/.reloc/logs/" ++ firstLog) = [] := by decide
  rw [FileSystem.openNew, hnames, hlong, hslash, hstart]
  simp only [List.forall_mem_cons] at hshort
  generalize firstLog = last at *
  simp [FileSystem.walkFrom, FileSystem.walkOn.eq_def, logDirectories, FileSystem.node?, hshort]
  rfl

/-- A run that is asked for the search path, and to show everything. -/
def showingPathVerbosely : Invocation :=
  ⟨["node", "/r", "--verbose", "path"], libdirVariables, "/p"⟩

/-- In an empty world a log can be opened. -/
theorem exists_opened_showingPathVerbosely : ∃ opened text,
    (opening showingPathVerbosely ⟨true, [], none⟩ "/" Config.ofTwoVariables).runIn emptyWorld =
      (.ok (), opened) ∧
    opened.disk = logDirectories.set ["p", ".reloc", "logs", firstLog] (.file text false) := by
  have hopening : opening showingPathVerbosely ⟨true, [], none⟩ "/" Config.ofTwoVariables =
      Journal.configure (some ⟨true, none⟩) "/p" := by
    have hdirectory : Path.resolve "/" ["/p"] = "/p" := by decide
    simp only [opening, showingPathVerbosely, hdirectory]
    rfl
  have hpath : Journal.logPath ⟨true, none⟩ "/p" emptyWorld.now =
      "/p/.reloc/logs/" ++ firstLog := by decide
  have hdirs : Path.dirname ("/p/.reloc/logs/" ++ firstLog) = "/p/.reloc/logs" := by decide
  have hmade : runIn (makeDirectory "/p/.reloc/logs")
      { emptyWorld with journal := { isConfigured := true } } =
        (.ok (), { emptyWorld with
          journal := { isConfigured := true }
          disk := logDirectories
          effects.made := [["p"], ["p", ".reloc"], ["p", ".reloc", "logs"]] }) := rfl
  rw [hopening, Journal.runIn_configure_of_enabled rfl rfl, hpath, hdirs, runIn_bind_of_ok hmade,
    writeFile]
  generalize Journal.header "/p" emptyWorld.now = text
  have hwrite : logDirectories.write "/" ("/p/.reloc/logs/" ++ firstLog) text =
      .ok (logDirectories.set ["p", ".reloc", "logs", firstLog] (.file text false),
        ["p", ".reloc", "logs", firstLog]) := by
    rw [FileSystem.write, FileSystem.update, openNew_logDirectories]
    rfl
  rw [runIn_bind_of_ok (runIn_changeFile_of_ok (by decide) hwrite)]
  exact ⟨_, text, rfl, rfl⟩

/-- The search path that a variable makes does not depend on what has been made for the log. -/
theorem overlooks_showingPath {opened opened' : World} {text : String}
    (hdisk : opened.disk = .empty) (hcwd : opened.cwd = "/")
    (hdisk' : opened'.disk =
      logDirectories.set ["p", ".reloc", "logs", firstLog] (.file text false)) :
    ((showingPath []).contextWith ⟨false, [], none⟩ "/" Config.ofTwoVariables).Overlooks
      (.path false) opened opened' := by
  refine ⟨fun _ ↦ ⟨fun path failure hpath hfailure ↦ ?_, fun _ h ↦ absurd h List.not_mem_nil,
    fun _ h ↦ absurd h List.not_mem_nil⟩, fun _ _ h ↦ absurd h List.not_mem_nil, fun _ _ ↦ trivial⟩
  obtain rfl : "/r" = path := Except.ok.inj hpath
  rw [hdisk, hcwd] at hfailure
  rw [hdisk', hcwd, ← hfailure]
  cbv

end Small

/-- The search path that one variable makes is the same if everything is to be shown. -/
theorem run_verbose_showingPath :
    CommandLine.Mixes [] [] [] ∧
    CommandLine.readRequest (showingPath []).userArguments =
      .run ⟨false, [], none⟩ (.path false) ∧
    emptyWorld.journal = {} ∧
    SameResult ((run (showingPath [])).runIn emptyWorld)
      ((run showingPathVerbosely).runIn emptyWorld) := by
  obtain ⟨-, -, hloaded⟩ := run_verbose (w := emptyWorld) .nil readRequest_showingPath
    (fun _ h ↦ nomatch h) rfl "node" "/r" libdirVariables "/p"
  obtain ⟨loaded, hload⟩ := runIn_load_of_ok (w := emptyWorld) ofDisk_libdirVariables
  have hstill : loaded = emptyWorld := runIn_load_still (isQuiet_of_journal rfl) hload
  have hdirectory : Path.resolve emptyWorld.cwd ["/p"] = "/p" := by decide
  rw [hstill, ← hdirectory] at hload
  obtain ⟨-, -, -, hopened⟩ := hloaded Config.ofTwoVariables emptyWorld hload
  obtain ⟨opened, text, hopening, hdisk⟩ := exists_opened_showingPathVerbosely
  have hplain : (opening (showingPath []) ⟨false, [], none⟩ "/" Config.ofTwoVariables).runIn
      emptyWorld = (.ok (), { emptyWorld with journal := { isConfigured := true } }) :=
    Journal.runIn_configure_of_not_enabled rfl
      (fun journal h ↦ absurd h (Option.not_mem_none journal)) _
  exact ⟨.nil, readRequest_showingPath, rfl,
    hopened _ opened hplain hopening (overlooks_showingPath rfl rfl hdisk)⟩

/-- A world whose working directory is locked. -/
def lockedWorld : World :=
  { emptyWorld with disk := ⟨[(["work"], .directory true)]⟩, cwd := "/work" }

/-- A run that is asked for the variables in that directory. -/
def showingLocked (more : List String) : Invocation :=
  ⟨["node", "/r"] ++ more ++ ["env"], Config.twoVariables, "/work"⟩

theorem ofDisk_lockedWorld :
    Config.ofDisk lockedWorld.disk "/work" "/home" "/work" Config.twoVariables =
      .ok Config.ofTwoVariables := by
  have hlower : ¬ConfigFile.IsThere lockedWorld.disk "/work"
      (Config.globalPath "/home" Config.twoVariables) := by
    refine Config.not_isThere_of_walkOn (?_ : _ = Except.error Errno.missing)
    have hnames : FileSystem.walkNames (Config.globalPath "/home" Config.twoVariables) =
        ["home", ".reloc", "config.yaml"] := by decide
    rw [hnames]
    exact FileSystem.walkOn_missing rfl (by decide) (by decide) (by decide) rfl
  -- Nothing is there, since nothing can be looked up in the directory.
  have hupper : ¬ConfigFile.IsThere lockedWorld.disk "/work"
      (Config.projectPath "/work" "/work") := by
    refine Config.not_isThere_of_walkOn (?_ : _ = Except.error Errno.denied)
    have hnames : FileSystem.walkNames (Config.projectPath "/work" "/work") =
        ["work", ".reloc", "config.yaml"] := by decide
    rw [hnames]
    refine (FileSystem.walkOn_node rfl (by decide) (by decide) (by decide) rfl (by simp)).trans ?_
    rw [FileSystem.walkOn]
    rfl
  rw [Config.ofDisk, Config.mergedFields_of_accepted (Config.readValid_of_not_there hlower)
    (Config.readValid_of_not_there hupper)]
  rfl

/-- In the locked directory no directory can be made. -/
theorem makeDirectory_lockedWorld :
    lockedWorld.disk.makeDirectory "/work" "/work/.reloc/logs" =
      ⟨lockedWorld.disk, [], .error .denied⟩ := by
  have hstart : FileSystem.startOf "/work" "/work/.reloc/logs" = [] := by decide
  have hnames : FileSystem.walkNames "/work/.reloc/logs" = ["work", ".reloc", "logs"] := by decide
  have hroot : lockedWorld.disk.node? [] = some (.directory false) := rfl
  have hwork : lockedWorld.disk.node? ["work"] = some (.directory true) := rfl
  have hshort : FileSystem.nameIsTooLong "work" = false := by decide
  have hwalk : lockedWorld.disk.walkOn .followLink FileSystem.maxLinks [] ["work"] =
      .ok (["work"], FileSystem.maxLinks) :=
    (FileSystem.walkOn_node hroot (by decide) (by decide) hshort hwork (by simp)).trans
      (by rw [FileSystem.walkOn]; rfl)
  rw [FileSystem.makeDirectory, if_neg (by decide), if_neg (by decide), hstart, hnames]
  simp [FileSystem.makeFrom, FileSystem.isDirectoryAt, hroot, hwork, hshort, hwalk]

/-- So no log can be opened there. -/
theorem exists_failure_lockedWorld : ∃ failure after,
    (opening (showingLocked ["--verbose"]) ⟨true, [], none⟩ "/work" Config.ofTwoVariables).runIn
      lockedWorld = (.error failure, after) := by
  have hdirectory : Path.resolve "/work" ["/work"] = "/work" := by decide
  have hdirs : Path.dirname (Journal.logPath ⟨true, none⟩ "/work" lockedWorld.now) =
      "/work/.reloc/logs" := by decide
  have hopening : opening (showingLocked ["--verbose"]) ⟨true, [], none⟩ "/work"
      Config.ofTwoVariables = Journal.configure (some ⟨true, none⟩) "/work" := by
    simp only [opening, showingLocked, hdirectory]
    rfl
  rw [hopening, Journal.runIn_configure_of_enabled rfl rfl, hdirs]
  have hfailed : runIn (makeDirectory "/work/.reloc/logs")
      { lockedWorld with journal := { isConfigured := true } } =
        (.error (.call ⟨.denied, "mkdir", some "/work/.reloc/logs"⟩),
          { lockedWorld with journal := { isConfigured := true } }) := by
    have hguard : runIn (Session.ofExcept (guardPath "/work/.reloc/logs"))
      { lockedWorld with journal := { isConfigured := true } } =
        (.ok (), { lockedWorld with journal := { isConfigured := true } }) := rfl
    rw [makeDirectory, runIn_bind_of_ok hguard, runIn_bind_of_ok (runIn_get _)]
    have hmade := makeDirectory_lockedWorld
    simp only [show lockedWorld.cwd = "/work" from rfl, hmade]
    rfl
  exact ⟨_, _, runIn_bind_of_error hfailed _⟩

/-- **To ask for everything to be shown may end a query**: in a locked directory the variables are
shown, but not if a log is to be opened there. -/
theorem run_verbose_locked :
    CommandLine.readRequest (showingLocked []).userArguments = .run ⟨false, [], none⟩ .env ∧
    lockedWorld.journal = {} ∧
    ((run (showingLocked [])).runIn lockedWorld).1 = .ok 0 ∧
    ((run (showingLocked ["--verbose"])).runIn lockedWorld).1 = .ok 1 := by
  have hrequest : CommandLine.readRequest ["env"] = .run ⟨false, [], none⟩ .env := by cbv
  have hverbose : CommandLine.readRequest ["--verbose", "env"] = .run ⟨true, [], none⟩ .env :=
    CommandLine.readRequest_verbose .nil hrequest
  have hdirectory : Path.resolve "/work" ["/work"] = "/work" := by decide
  obtain ⟨loaded, hload⟩ := runIn_load_of_ok (w := lockedWorld) ofDisk_lockedWorld
  have hstill : loaded = lockedWorld := runIn_load_still (isQuiet_of_journal rfl) hload
  rw [hstill, ← hdirectory] at hload
  refine ⟨hrequest, rfl, ?_, ?_⟩
  · have hasked : CommandLine.readRequest (showingLocked []).userArguments =
        .run ⟨false, [], none⟩ .env := hrequest
    obtain ⟨_, opened, hopening⟩ := (Journal.succeeds_configure_none "/work").exists_ok lockedWorld
    rw [← hdirectory] at hopening
    obtain ⟨started, -, houtcome⟩ := exists_outcome_run hasked hload hopening
    exact houtcome
  · have hasked : CommandLine.readRequest (showingLocked ["--verbose"]).userArguments =
        .run ⟨true, [], none⟩ .env := hverbose
    obtain ⟨failure, after, hopening⟩ := exists_failure_lockedWorld
    exact outcome_run_of_opening_error hasked hload hopening

end Program

end ResourceLocator
