import ResourceLocator.Program.Run
import ResourceLocator.Proofs.Config.Faults
import ResourceLocator.Proofs.Config.Precedence
import ResourceLocator.Proofs.Locate.Failing
import ResourceLocator.Proofs.Locate.Still
import ResourceLocator.Proofs.Log.Console

/-!
# The exit status of a run

A run that has been asked for a command ends in one of three places. The configuration may not be
loaded; the debug log may not be opened; otherwise the command is performed, and then its exit
status is decided by a short list of questions (`Context.exitStatus`), each of which matters only
if those before it are answered well. Everything else that a command does is to show something, and
that never fails. Whether a scan of the search path fails, and whether it finds nothing, is said of
the disk (`Context.scan_iff`).

A failure is explained by its message before its exit status is given, so a failure without a
message leaves the run without a status (`statusOf`). Only the trace tool can cause one.
-/

namespace ResourceLocator

/-! ### Sessions with one answer -/

namespace Session

variable {α β : Type} {a : α} {w : World}

/-- A session whose answer is the same in every world. -/
def Gives (a : α) (session : Session α) : Prop := ∀ w, (runIn session w).1 = .ok a

theorem gives_pure (a : α) : Gives a (pure a) := fun _ ↦ rfl

theorem Succeeds.gives {session : Session β} {next : β → Session α} (h : Succeeds session)
    (hnext : ∀ b, Gives a (next b)) : Gives a (session >>= next) := by
  intro w
  obtain ⟨b, after, hrun⟩ := h.exists_ok w
  rw [runIn_bind_of_ok hrun]
  exact hnext b after

theorem Gives.ite {condition : Prop} [Decidable condition] {session other : Session α}
    (h : Gives a session) (hother : Gives a other) :
    Gives a (if condition then session else other) := by
  split
  · exact h
  · exact hother

end Session

namespace Program

open Session

variable {context : Context} {failure : Failure} {w started after loaded : World}
  {invocation : Invocation} {options : CommandLine.Options} {action : CommandLine.Action}
  {config : Config}

/-! ### Failures -/

/-- The exit status of a failure that no command deals with. There is none if the failure has to be
explained and has no message. -/
def statusOf (failure : Failure) : Except Failure Int :=
  if isExplained failure then .ok failure.exitCode
  else failure.message.map fun _ ↦ failure.exitCode

theorem statusOf_of_isGeneral (h : failure.IsGeneral) : statusOf failure = .ok 1 := by
  obtain ⟨reason, hreason⟩ := h.exists_message
  have hexplained : isExplained failure = false := by cases h <;> rfl
  simp only [statusOf, hexplained, hreason, h.exitCode_eq, Bool.false_eq_true, if_false, Except.map]

theorem statusOf_inconvertible (cause : Value.Inconvertible) :
    statusOf (.inconvertible cause) = .ok 1 := by
  cases cause <;> rfl

/-- **A failure is explained**, and then its exit status is given. -/
theorem outcome_explain (failure : Failure) (w : World) :
    (runIn (explain failure >>= fun _ ↦ pure failure.exitCode) w).1 = statusOf failure := by
  rw [statusOf, explain]
  cases hexplained : isExplained failure with
  | true => rfl
  | false =>
    simp only [Bool.not_false, if_true, Bool.false_eq_true, if_false, bind_assoc]
    cases hmessage : failure.message with
    | ok reason =>
      have hask : runIn (messageOf failure) w = (.ok reason, w) := by
        rw [messageOf, runIn_ofExcept, hmessage]
      rw [runIn_bind_of_ok hask]
      exact (Console.succeeds_log .error reason).gives (fun _ ↦
        (Journal.succeeds_write (failedNote reason)).gives fun _ ↦ gives_pure _) w
    | error unsayable =>
      have hask : runIn (messageOf failure) w = (.error unsayable, w) := by
        rw [messageOf, runIn_ofExcept, hmessage]
      rw [runIn_bind_of_error hask]
      rfl

/-- The exit status for what a command comes to. -/
def exitOf : Except Failure ExitCode → Except Failure Int
  | .ok code => .ok code.toInt
  | .error failure => statusOf failure

theorem exitOf_bind_of_ok {α : Type} {a : α} {session : Session α}
    (h : runIn session w = (.ok a, after)) (next : α → Session ExitCode) :
    exitOf (runIn (session >>= next) w).1 = exitOf (runIn (next a) after).1 := by
  rw [runIn_bind_of_ok h]

theorem exitOf_bind_of_error {α : Type} {session : Session α}
    (h : runIn session w = (.error failure, after)) (next : α → Session ExitCode) :
    exitOf (runIn (session >>= next) w).1 = statusOf failure := by
  rw [runIn_bind_of_error h, exitOf]

theorem exitOf_of_gives (code : ExitCode) {session : Session ExitCode} (h : Gives code session)
    (w : World) : exitOf (runIn session w).1 = .ok code.toInt := by
  rw [h w]
  rfl

/-- Without a context a run ends with the status of the failure. -/
theorem outcome_runAction_of_error
    (h : (prepare invocation options).runIn w = (.error failure, after)) :
    ((runAction invocation options action).runIn w).1 = statusOf failure := by
  rw [runAction, runIn_tryCatch_of_error (runIn_bind_of_error h _)]
  exact outcome_explain failure after

/-- With a context a run ends with the status of what the command comes to. -/
theorem outcome_runAction_of_ok
    (h : (prepare invocation options).runIn w = (.ok context, started)) :
    ((runAction invocation options action).runIn w).1 =
      exitOf ((perform context action).runIn started).1 := by
  have hprepared := runIn_bind_of_ok h fun context ↦ do
    return (← perform context action).toInt
  rcases hperform : (perform context action).runIn started with ⟨outcome, after⟩
  rw [runAction]
  cases outcome with
  | ok code =>
    rw [runIn_tryCatch_of_ok (hprepared.trans (runIn_bind_of_ok hperform _))]
    rfl
  | error failure =>
    rw [runIn_tryCatch_of_error (hprepared.trans (runIn_bind_of_error hperform _))]
    exact outcome_explain failure after

/-! ### Commands -/

namespace Context

/-- The search path of a session, and the world in which it has been found. -/
def searchPath (context : Context) (w : World) : Except Failure (List String × World) :=
  match context.locate.runIn w with
  | (.ok located, after) => .ok (located.searchPath, after)
  | (.error failure, _) => .error failure

theorem searchPath_of_locate {located : Located}
    (h : context.locate.runIn w = (.ok located, after)) :
    context.searchPath w = .ok (located.searchPath, after) := by
  rw [searchPath, h]

/-- Scans the search path as a command asks, and tells whether it has what the command needs. -/
def scan (context : Context) (w : World) : CommandLine.Action → Except Failure Bool
  | .find name => do
    let (dirs, after) ← context.searchPath w
    let found ← Resource.find after.cwd (after.disk.probe after.cwd).isFile name dirs
    return found.isSome
  | .list extension => do
    let (dirs, after) ← context.searchPath w
    let probe := after.disk.probe after.cwd
    let _ ← Resource.list probe.entries probe.isFile extension dirs
    return true
  | _ => return true

/-- A scan of a disk fails. -/
def ScanFails (fs : FileSystem) (cwd : String) (dirs : List String) : CommandLine.Action → Prop
  | .find name => Resource.FindFails fs cwd name dirs
  | .list extension => Resource.ListFails fs cwd extension dirs
  | _ => False

/-- A scan of a disk does not find what the command needs. -/
def ScanFindsNothing (fs : FileSystem) (cwd : String) (dirs : List String) :
    CommandLine.Action → Prop
  | .find name => Resource.FindsNothing fs cwd name dirs
  | _ => False

/-- **A scan fails, or finds nothing**, as the disk says on which it is made. -/
theorem scan_iff {located : Located} (h : context.locate.runIn w = (.ok located, after))
    (action : CommandLine.Action) :
    ((∃ failure, context.scan w action = .error failure) ↔
      ScanFails after.disk after.cwd located.searchPath action) ∧
    (context.scan w action = .ok false ↔
      ScanFindsNothing after.disk after.cwd located.searchPath action) := by
  have hpath := searchPath_of_locate h
  cases action with
  | find name =>
    have hscan : context.scan w (.find name) = (Resource.find after.cwd
        (after.disk.probe after.cwd).isFile name located.searchPath).map Option.isSome := by
      rw [scan, hpath]
      rfl
    simp only [hscan, map_eq_error_iff, map_eq_ok_iff, Option.isSome_eq_false_iff,
      Option.isNone_iff_eq_none, exists_eq_right]
    exact ⟨Resource.exists_find_eq_error_iff_findFails, Resource.find_eq_none_iff_findsNothing⟩
  | list extension =>
    have hscan : context.scan w (.list extension) = (Resource.list
        (after.disk.probe after.cwd).entries (after.disk.probe after.cwd).isFile extension
        located.searchPath).map fun _ ↦ true := by
      rw [scan, hpath]
      rfl
    simp only [hscan, map_eq_error_iff, map_eq_ok_iff, Bool.true_eq_false, and_false,
      exists_false]
    exact ⟨Resource.exists_list_eq_error_iff_listFails, Iff.rfl⟩
  | root => simp [scan, ScanFails, ScanFindsNothing, pure, Except.pure]
  | path withLayers => simp [scan, ScanFails, ScanFindsNothing, pure, Except.pure]
  | env => simp [scan, ScanFails, ScanFindsNothing, pure, Except.pure]
  | trace args => simp [scan, ScanFails, ScanFindsNothing, pure, Except.pure]

/-- The exit status of a command that locates resources. -/
def locatingStatus (context : Context) (w : World) (action : CommandLine.Action) : Int :=
  if context.cannotStart (context.searching w) then 2
  else if Dirlist.cannotRead (context.reading w).disk w.cwd context.config.systemDirs then 1
  else match context.scan w action with
    | .error _ => 1
    | .ok false => 4
    | .ok true => 0

/-- A lookup on a search path that is found ends as the scan does. -/
theorem locatingStatus_of_starts
    (hstart : context.cannotStart (context.searching w) = false)
    (hread : Dirlist.cannotRead (context.reading w).disk w.cwd context.config.systemDirs = false) :
    context.locatingStatus w action = match context.scan w action with
      | .error _ => 1
      | .ok false => 4
      | .ok true => 0 := by
  rw [locatingStatus, if_neg (by simp [hstart]), if_neg (by simp [hread])]

/-- Runs the trace tool, if there is one. -/
def tracing (context : Context) (args : List String) (tool : TraceTool) : Session TraceResult := do
  let command := tool.command context.env
  Console.log .debug ("Trace command (" ++ command.source.name ++ "): " ++ command.line)
  command.run args context.directory

/-- **The exit status of a command.** -/
def exitStatus (context : Context) (w : World) : CommandLine.Action → Except Failure Int
  | .env => .ok 0
  | .trace args =>
    match context.config.traceTool with
    | none => .ok 3
    | some tool =>
      match ((context.tracing args tool).runIn w).1 with
      | .ok _ => .ok 0
      | .error failure => statusOf failure
  | action => .ok (context.locatingStatus w action)

/-- **A command that locates resources** fails if nothing can be located, and otherwise goes on. -/
theorem exitOf_locate (hfaults : context.HasStartupFaults) {next : Located → Session ExitCode}
    (hnext : ∀ located after, context.locate.runIn w = (.ok located, after) →
      exitOf ((next located).runIn after).1 = .ok (match context.scan w action with
        | .error _ => 1
        | .ok false => 4
        | .ok true => 0)) :
    exitOf ((context.locate >>= next).runIn w).1 = .ok (context.locatingStatus w action) := by
  rw [locatingStatus]
  rcases locate_cases hfaults w with ⟨hstart, fault, after, h⟩ |
    ⟨hstart, ⟨hread, failure, after, hgeneral, h⟩ | ⟨hread, located, after, h⟩⟩
  · rw [if_pos hstart, exitOf_bind_of_error h]
    rfl
  · rw [if_neg (by simp [hstart]), if_pos hread, exitOf_bind_of_error h]
    exact statusOf_of_isGeneral hgeneral
  · rw [if_neg (by simp [hstart]), if_neg (by simp [hread]), exitOf_bind_of_ok h]
    exact hnext located after h

theorem exitOf_showRoot (hfaults : context.HasStartupFaults) (w : World) :
    exitOf ((showRoot context).runIn w).1 = .ok (context.locatingStatus w .root) := by
  refine exitOf_locate hfaults fun located after _ ↦ exitOf_of_gives .success ?_ after
  -- The lines come with a warning before them or without.
  have hdirs : Gives ExitCode.success (located.root.dirs.forM Console.output >>= fun _ ↦
      pure ExitCode.success) :=
    Succeeds.gives (failsOnly_forM Console.succeeds_output) fun _ ↦ gives_pure _
  exact (Console.succeeds_log _ _).gives fun _ ↦
    .ite ((Console.succeeds_log _ _).gives fun _ ↦ hdirs) hdirs

theorem exitOf_showPath (hfaults : context.HasStartupFaults) (withLayers : Bool) (w : World) :
    exitOf ((showPath context withLayers).runIn w).1 =
      .ok (context.locatingStatus w (.path withLayers)) := by
  refine exitOf_locate hfaults fun located after _ ↦ exitOf_of_gives .success ?_ after
  refine .ite ?_ ?_
  · exact Succeeds.gives (failsOnly_forM fun _ ↦ Console.succeeds_output _) fun _ ↦ gives_pure _
  · exact Succeeds.gives (failsOnly_forM Console.succeeds_output) fun _ ↦ gives_pure _

theorem exitOf_findResource (hfaults : context.HasStartupFaults) (name : String) (w : World) :
    exitOf ((findResource context name).runIn w).1 =
      .ok (context.locatingStatus w (.find name)) := by
  refine exitOf_locate hfaults fun located after h ↦ ?_
  have hask := Resource.runIn_find after.cwd name located.searchPath after
  rw [runIn_bind_of_ok (runIn_get after), scan, searchPath_of_locate h]
  simp only [bind, Except.bind]
  cases hfind : Resource.find after.cwd (after.disk.probe after.cwd).isFile name
      located.searchPath with
  | error failure =>
    rw [hfind] at hask
    rw [← statusOf_of_isGeneral (Resource.failsOnly_find _ _ _ _ _ _ hask)]
    exact exitOf_bind_of_error hask _
  | ok found =>
    rw [hfind] at hask
    refine (exitOf_bind_of_ok hask _).trans ?_
    cases found with
    | none => exact exitOf_of_gives _ ((Console.succeeds_log _ _).gives fun _ ↦ gives_pure _) after
    | some resource =>
      exact exitOf_of_gives _ ((Console.succeeds_output _).gives fun _ ↦ gives_pure _) after

theorem exitOf_listResources (hfaults : context.HasStartupFaults) (extension : Option String)
    (w : World) :
    exitOf ((listResources context extension).runIn w).1 =
      .ok (context.locatingStatus w (.list extension)) := by
  refine exitOf_locate hfaults fun located after h ↦ ?_
  have hask := Resource.runIn_list located.searchPath extension after
  rw [scan, searchPath_of_locate h]
  simp only [bind, Except.bind]
  cases hlist : Resource.list (after.disk.probe after.cwd).entries
      (after.disk.probe after.cwd).isFile extension located.searchPath with
  | error failure =>
    rw [hlist] at hask
    rw [← statusOf_of_isGeneral (Resource.failsOnly_list _ _ _ _ _ hask)]
    exact exitOf_bind_of_error hask _
  | ok listed =>
    rw [hlist] at hask
    refine (exitOf_bind_of_ok hask _).trans ?_
    have hlines : Gives ExitCode.success ((listed.forM fun resource ↦
        Console.output resource.path) >>= fun _ ↦ pure ExitCode.success) :=
      Succeeds.gives (failsOnly_forM fun _ ↦ Console.succeeds_output _) fun _ ↦ gives_pure _
    exact exitOf_of_gives _
      (.ite ((Console.succeeds_log _ _).gives fun _ ↦ hlines) hlines) after

theorem exitOf_showVariables (context : Context) (w : World) :
    exitOf ((showVariables context).runIn w).1 = .ok 0 := by
  refine exitOf_of_gives .success ?_ w
  refine Succeeds.gives (failsOnly_forM fun name ↦ ?_) fun _ ↦ gives_pure _
  cases context.env.nonempty? name with
  | none => exact Console.succeeds_status _ _ _
  | some value => exact Console.succeeds_status _ _ _

theorem exitOf_trace (context : Context) (args : List String) (w : World) :
    exitOf ((trace context args).runIn w).1 = context.exitStatus w (.trace args) := by
  rw [trace, exitStatus]
  cases context.config.traceTool with
  | none => exact exitOf_of_gives _ ((Console.succeeds_log _ _).gives fun _ ↦ gives_pure _) w
  | some tool =>
    have htracing : (do
        let command := tool.command context.env
        Console.log .debug ("Trace command (" ++ command.source.name ++ "): " ++ command.line)
        let result ← command.run args context.directory
        Session.print result.output
        return ExitCode.success) = (context.tracing args tool >>= fun result ↦
          Session.print result.output >>= fun _ ↦ pure ExitCode.success) := by
      simp only [tracing, bind_assoc]
    simp only [htracing]
    rcases hrun : (context.tracing args tool).runIn w with ⟨outcome, after⟩
    cases outcome with
    | ok result =>
      rw [exitOf_bind_of_ok hrun]
      rfl
    | error failure => rw [exitOf_bind_of_error hrun]

/-- **What a command comes to** has the exit status of the command. -/
theorem exitOf_perform (hfaults : context.HasStartupFaults) (action : CommandLine.Action)
    (w : World) : exitOf ((perform context action).runIn w).1 = context.exitStatus w action := by
  cases action with
  | root => exact exitOf_showRoot hfaults w
  | path withLayers => exact exitOf_showPath hfaults withLayers w
  | find name => exact exitOf_findResource hfaults name w
  | list extension => exact exitOf_listResources hfaults extension w
  | env => exact exitOf_showVariables context w
  | trace args => exact exitOf_trace context args w

end Context

/-! ### Preparation -/

/-- The context that is prepared with a configuration. -/
def Invocation.contextWith (invocation : Invocation) (options : CommandLine.Options) (cwd : String)
    (config : Config) : Context where
  config := config
  env := invocation.env
  directory := Path.resolve cwd [invocation.directory]
  userIncludes := resolveIncludes cwd (Path.resolve cwd [invocation.directory]) options.includes
  executable := executableOf cwd (Path.resolve cwd [invocation.directory]) invocation.arguments
    options.executable

/-- An executable that cannot be determined is a startup fault. -/
theorem hasStartupFaults_contextWith (invocation : Invocation) (options : CommandLine.Options)
    (cwd : String) (config : Config) :
    (invocation.contextWith options cwd config).HasStartupFaults := by
  intro failure h
  have harguments : ∀ dir args, Executable.ofArguments cwd dir args = .error failure →
      ∃ fault, failure = .startup fault := by
    intro dir args h
    unfold Executable.ofArguments at h
    split at h
    · exact ⟨_, (Except.error.inj h).symm⟩
    · exact ⟨_, (Except.error.inj h).symm⟩
    · cases h
  change executableOf _ _ _ _ = _ at h
  unfold executableOf at h
  split at h
  · exact harguments _ _ h
  · exact harguments _ _ h
  · unfold Executable.ofPath at h
    split at h
    · cases h
    · exact ⟨_, (Except.error.inj h).symm⟩

/-- **Loading fails** as reading the configuration does, and nothing is done then. -/
theorem runIn_load_of_error {dir : String} {env : Environment}
    (h : Config.ofDisk w.disk w.cwd w.home dir env = .error failure) :
    (Config.load dir env).runIn w = (.error failure, w) := by
  have hread : runIn (Session.ofExcept (Config.ofDisk w.disk w.cwd w.home dir env)) w =
      (.error failure, w) := by rw [runIn_ofExcept, h]
  exact (runIn_bind_of_ok (runIn_get w) _).trans (runIn_bind_of_error hread _)

/-- A configuration that is read is loaded. -/
theorem runIn_load_of_ok {dir : String} {env : Environment}
    (h : Config.ofDisk w.disk w.cwd w.home dir env = .ok config) :
    ∃ loaded, (Config.load dir env).runIn w = (.ok config, loaded) := by
  have hread : runIn (Session.ofExcept (Config.ofDisk w.disk w.cwd w.home dir env)) w =
      (.ok config, w) := by rw [runIn_ofExcept, h]
  exact ⟨_, (runIn_bind_of_ok (runIn_get w) _).trans ((runIn_bind_of_ok hread _).trans
    (runIn_bind_of_ok (Journal.runIn_write _ w) _))⟩

/-- Opens the debug log. -/
def opening (invocation : Invocation) (options : CommandLine.Options) (cwd : String)
    (config : Config) : Session Unit :=
  Journal.configure (journalConfig config (options.isVerbose || config.verbose))
    (Path.resolve cwd [invocation.directory])

theorem runIn_prepare_of_load_error
    (h : (Config.load (Path.resolve w.cwd [invocation.directory]) invocation.env).runIn w =
      (.error failure, after)) : (prepare invocation options).runIn w = (.error failure, after) :=
  (runIn_bind_of_ok (runIn_get w) _).trans (runIn_bind_of_error h _)

theorem runIn_prepare_of_opening_error
    (h : (Config.load (Path.resolve w.cwd [invocation.directory]) invocation.env).runIn w =
      (.ok config, loaded))
    (hopening : (opening invocation options w.cwd config).runIn loaded = (.error failure, after)) :
    (prepare invocation options).runIn w = (.error failure, after) :=
  (runIn_bind_of_ok (runIn_get w) _).trans
    ((runIn_bind_of_ok h _).trans (runIn_bind_of_error hopening _))

theorem exists_runIn_prepare
    (h : (Config.load (Path.resolve w.cwd [invocation.directory]) invocation.env).runIn w =
      (.ok config, loaded))
    (hopening : (opening invocation options w.cwd config).runIn loaded = (.ok (), after)) :
    ∃ started, (prepare invocation options).runIn w =
      (.ok (invocation.contextWith options w.cwd config), started) := by
  let prepared := invocation.contextWith options w.cwd config
  have hnoted : ∀ isVerbose, Gives prepared
      (Journal.write (startNote prepared isVerbose) >>= fun _ ↦ pure prepared) := fun _ ↦
    (Journal.succeeds_write _).gives fun _ ↦ gives_pure _
  have hrun : ((prepare invocation options).runIn w).1 = .ok prepared := by
    refine (congrArg Prod.fst ((runIn_bind_of_ok (runIn_get w) _).trans
      ((runIn_bind_of_ok h _).trans (runIn_bind_of_ok hopening _)))).trans ?_
    refine Gives.ite ?_ ?_ after
    · exact Succeeds.gives (failsOnly_modify _) fun _ ↦
        (Console.succeeds_setThreshold _).gives fun _ ↦ hnoted _
    · exact (Console.succeeds_setThreshold _).gives fun _ ↦ hnoted _
  exact ⟨_, Prod.ext hrun rfl⟩

/-! ### Preparation without entries -/

/-- The world in which a command is performed if no entries are made. -/
def stillStarted (config : Config) (w : World) : World :=
  { w with journal := { isConfigured := true }, threshold := config.logLevel }

theorem isQuiet_of_journal (h : w.journal = {}) : w.IsQuiet := ⟨by rw [h], by rw [h]⟩

theorem isQuiet_stillStarted (config : Config) (w : World) : (stillStarted config w).IsQuiet :=
  ⟨rfl, rfl⟩

/-- Loading leaves the world as it is then. -/
theorem runIn_load_still (hquiet : w.IsQuiet) {dir : String} {env : Environment}
    (h : (Config.load dir env).runIn w = (.ok config, loaded)) : loaded = w := by
  have hload : (Config.load dir env).runIn w =
      (Config.ofDisk w.disk w.cwd w.home dir env, w) := by
    rw [Config.load, runIn_bind_of_ok (runIn_get w)]
    exact (runIn_bind_of_question (runIn_ofExcept _ w) fun _ ↦
      runIn_bind_of_question (Journal.runIn_write_of_isQuiet hquiet _) fun _ ↦ rfl).trans
        (Prod.ext (bind_pure _) rfl)
  rw [hload, Prod.mk.injEq] at h
  exact h.2.symm

/-- **Without a debug log** nothing but the console log is prepared. -/
theorem runIn_prepare_still (hjournal : w.journal = {})
    (hload : (Config.load (Path.resolve w.cwd [invocation.directory]) invocation.env).runIn w =
      (.ok config, loaded))
    (hoptions : options.isVerbose = false) (hverbose : config.verbose = false)
    (hdebug : config.debug.any (·.enabled) = false) :
    (prepare invocation options).runIn w =
      (.ok (invocation.contextWith options w.cwd config), stillStarted config w) := by
  obtain rfl := runIn_load_still (isQuiet_of_journal hjournal) hload
  have hopening : (Journal.configure (journalConfig config (options.isVerbose || config.verbose))
      (Path.resolve loaded.cwd [invocation.directory])).runIn loaded =
        (.ok (), { loaded with journal := { isConfigured := true } }) := by
    rw [hoptions, hverbose]
    exact Journal.runIn_configure_of_not_enabled hjournal ((Option.any_eq_false _ _).1 hdebug) _
  refine (runIn_bind_of_ok (runIn_get loaded) _).trans
    ((runIn_bind_of_ok hload _).trans ((runIn_bind_of_ok hopening _).trans ?_))
  rw [hoptions, hverbose]
  exact (runIn_bind_of_ok rfl _).trans
    (runIn_bind_of_ok (Journal.runIn_write_of_isQuiet (isQuiet_stillStarted config loaded) _) _)

/-! ### Runs -/

theorem outcome_run_of_request
    (h : CommandLine.readRequest invocation.userArguments = .run options action) (w : World) :
    ((run invocation).runIn w).1 = ((runAction invocation options action).runIn w).1 := by
  simp only [run, h]

/-- **The status of a failure to load.** -/
theorem statusOf_of_runIn_load {dir : String} {env : Environment}
    (h : (Config.load dir env).runIn w = (.error failure, after)) :
    (∃ fault source, failure = .config fault source) ∧ statusOf failure = .ok 3 ∨
      (∃ cause, failure = .inconvertible cause) ∧ statusOf failure = .ok 1 := by
  rcases Config.ofDisk_cases w.disk w.cwd w.home dir env with
    ⟨config, hok⟩ | ⟨fault, source, hfault⟩ | ⟨cause, hcause⟩
  · obtain ⟨loaded, hloaded⟩ := runIn_load_of_ok hok
    cases hloaded.symm.trans h
  · cases (runIn_load_of_error hfault).symm.trans h
    exact .inl ⟨⟨_, _, rfl⟩, rfl⟩
  · cases (runIn_load_of_error hcause).symm.trans h
    exact .inr ⟨⟨_, rfl⟩, statusOf_inconvertible cause⟩

/-- Without a configuration the status is that of the failure to load. -/
theorem outcome_run_of_load_error
    (h : CommandLine.readRequest invocation.userArguments = .run options action)
    (hload : (Config.load (Path.resolve w.cwd [invocation.directory]) invocation.env).runIn w =
      (.error failure, after)) : ((run invocation).runIn w).1 = statusOf failure := by
  rw [outcome_run_of_request h, outcome_runAction_of_error (runIn_prepare_of_load_error hload)]

/-- A debug log that cannot be opened is a general failure. -/
theorem outcome_run_of_opening_error
    (h : CommandLine.readRequest invocation.userArguments = .run options action)
    (hload : (Config.load (Path.resolve w.cwd [invocation.directory]) invocation.env).runIn w =
      (.ok config, loaded))
    (hopening : (opening invocation options w.cwd config).runIn loaded = (.error failure, after)) :
    ((run invocation).runIn w).1 = .ok 1 := by
  rw [outcome_run_of_request h,
    outcome_runAction_of_error (runIn_prepare_of_opening_error hload hopening)]
  exact statusOf_of_isGeneral (Journal.failsOnly_configure _ _ loaded failure after hopening)

/-- With a configuration and a debug log there is a context, and the status is that of the
command. -/
theorem exists_outcome_run
    (h : CommandLine.readRequest invocation.userArguments = .run options action)
    (hload : (Config.load (Path.resolve w.cwd [invocation.directory]) invocation.env).runIn w =
      (.ok config, loaded))
    (hopening : (opening invocation options w.cwd config).runIn loaded = (.ok (), after)) :
    ∃ started, (prepare invocation options).runIn w =
        (.ok (invocation.contextWith options w.cwd config), started) ∧
      ((run invocation).runIn w).1 =
        (invocation.contextWith options w.cwd config).exitStatus started action := by
  obtain ⟨started, hprepare⟩ := exists_runIn_prepare hload hopening
  refine ⟨started, hprepare, ?_⟩
  rw [outcome_run_of_request h, outcome_runAction_of_ok hprepare]
  exact Context.exitOf_perform (hasStartupFaults_contextWith _ _ _ _) action started

/-- **The exit status of a run** that has been asked for a command. If the configuration cannot be
loaded, it is that of a configuration fault, unless a value cannot be measured. If then the debug
log cannot be opened, it is that of a general failure. Otherwise there is a context, and the exit
status is that of the command. Whether a scan fails, and whether it finds nothing, is said of the
disk on which it is made. -/
theorem exitStatus_run
    (h : CommandLine.readRequest invocation.userArguments = .run options action) (w : World) :
    let outcome := ((run invocation).runIn w).1
    let loading := Config.load (Path.resolve w.cwd [invocation.directory]) invocation.env
    (∀ failure after, loading.runIn w = (.error failure, after) →
      (∃ fault source, failure = .config fault source) ∧ outcome = .ok 3 ∨
        (∃ cause, failure = .inconvertible cause) ∧ outcome = .ok 1) ∧
    ∀ config loaded, loading.runIn w = (.ok config, loaded) →
      (∀ failure after, (opening invocation options w.cwd config).runIn loaded =
        (.error failure, after) → outcome = .ok 1) ∧
      ∀ opened, (opening invocation options w.cwd config).runIn loaded = (.ok (), opened) →
        let context := invocation.contextWith options w.cwd config
        ∃ started, (prepare invocation options).runIn w = (.ok context, started) ∧
          outcome = context.exitStatus started action ∧
          ∀ located after, context.locate.runIn started = (.ok located, after) →
            let dirs := located.searchPath
            ((∃ failure, context.scan started action = .error failure) ↔
              Context.ScanFails after.disk after.cwd dirs action) ∧
            (context.scan started action = .ok false ↔
              Context.ScanFindsNothing after.disk after.cwd dirs action) := by
  intro outcome loading
  constructor
  · intro failure after hload
    have houtcome : outcome = statusOf failure := outcome_run_of_load_error h hload
    rw [houtcome]
    exact statusOf_of_runIn_load hload
  · intro config loaded hload
    constructor
    · intro failure after hopening
      exact outcome_run_of_opening_error h hload hopening
    · intro opened hopening context
      obtain ⟨started, hprepare, houtcome⟩ := exists_outcome_run h hload hopening
      exact ⟨started, hprepare, houtcome, fun located after hlocate ↦
        Context.scan_iff hlocate action⟩

section Small

/-- A world with an empty disk. -/
def emptyWorld : World where
  disk := .empty
  cwd := "/"
  home := "/home"
  now := 0
  env := fun _ ↦ none
  argv := []
  replies := []
  hasColours := false

/-- A run that is asked for the variables. -/
def showingVariables (env : Environment) : Invocation := ⟨["node", "/r", "env"], env, "/p"⟩

theorem readRequest_showingVariables (env : Environment) :
    CommandLine.readRequest (showingVariables env).userArguments = .run ⟨false, [], none⟩ .env := by
  have hrequest : CommandLine.readRequest ["env"] = .run ⟨false, [], none⟩ .env := by cbv
  exact hrequest

/-- A run that is asked for something. -/
def asking (env : Environment) (args : List String) : Invocation :=
  ⟨["node", "/r"] ++ args, env, "/p"⟩

/-- Two variables that make a configuration, and one that names the directory of the resources. -/
def libdirVariables : Environment :=
  .ofList [("RELOC_PACKAGE", "tool"), ("RELOC_API_VERSION", "2"), ("TOOL_LIBDIR", "/lib")]

theorem ofDisk_libdirVariables :
    Config.ofDisk .empty "/" "/home" "/p" libdirVariables = .ok Config.ofTwoVariables := by
  have hlower := Config.readValid_of_not_there (Config.not_isThere_home libdirVariables rfl)
  have hupper := Config.readValid_of_not_there Config.not_isThere_project
  rw [Config.ofDisk, Config.mergedFields_of_accepted hlower hupper]
  rfl

/-- Such a run is prepared without entries where the variables make a small configuration. -/
theorem runIn_prepare_asking {env : Environment}
    (h : Config.ofDisk .empty "/" "/home" "/p" env = .ok Config.ofTwoVariables)
    (args : List String) (executable : Option String) :
    ∃ loaded, (Config.load (Path.resolve emptyWorld.cwd ["/p"]) env).runIn emptyWorld =
        (.ok Config.ofTwoVariables, loaded) ∧
      (prepare (asking env args) ⟨false, [], executable⟩).runIn emptyWorld =
        (.ok ((asking env args).contextWith ⟨false, [], executable⟩ "/" Config.ofTwoVariables),
          stillStarted Config.ofTwoVariables emptyWorld) := by
  have hdirectory : Path.resolve emptyWorld.cwd ["/p"] = "/p" := by decide
  obtain ⟨loaded, hload⟩ := runIn_load_of_ok (w := emptyWorld) h
  rw [← hdirectory] at hload
  exact ⟨loaded, hload, runIn_prepare_still rfl hload rfl rfl rfl⟩

/-- What is located with the three variables. -/
def ofLibdir : Located := ⟨⟨.libdir, ["/lib"]⟩, ⟨[], ["/lib"], [], []⟩⟩

theorem runIn_locate_asking (hquiet : w.IsQuiet) (hdisk : w.disk = .empty) (hcwd : w.cwd = "/")
    (args : List String) (executable : Option String) :
    ((asking libdirVariables args).contextWith ⟨false, [], executable⟩ "/"
      Config.ofTwoVariables).locate.runIn w = (.ok ofLibdir, w) := by
  rw [Context.runIn_locate_of_isQuiet _ hquiet, hdisk, hcwd]
  rfl

/-- On an empty disk a relative name is looked for in vain. -/
theorem isPassedOver_libdir : Resource.IsPassedOver .empty "/" "n" "/lib" := by
  have hpath : Path.join ["/lib", "n"] = "/lib/n" := by decide
  have hstat : FileSystem.empty.stat "/" "/lib/n" =
      .error ⟨.missing, "stat", some "/lib/n"⟩ := by cbv
  constructor
  · decide
  · decide
  · decide
  · rw [hpath, hstat]
    rintro (hnul | ⟨fault, hfault, hmissing, -⟩)
    · exact absurd hnul (by decide)
    · obtain rfl := Except.error.inj hfault
      exact hmissing rfl
  · simp [hpath, hstat]

end Small

/-- **Runs of several statuses.** Where two variables make a configuration, the variables are shown;
there is no tool to trace; and without an absolute path of the executable nothing can be located.
Where a third names a directory that is not there, an absolute name is refused, and a relative one
is not found. -/
theorem exitStatus_run_of_requests :
    CommandLine.readRequest ["env"] = .run ⟨false, [], none⟩ .env ∧
    CommandLine.readRequest ["trace"] = .run ⟨false, [], none⟩ (.trace []) ∧
    CommandLine.readRequest ["--exe", "bin/tool", "root"] =
      .run ⟨false, [], some "bin/tool"⟩ .root ∧
    CommandLine.readRequest ["find", "/n"] = .run ⟨false, [], none⟩ (.find "/n") ∧
    CommandLine.readRequest ["find", "n"] = .run ⟨false, [], none⟩ (.find "n") ∧
    ((run (asking Config.twoVariables ["env"])).runIn emptyWorld).1 = .ok 0 ∧
    ((run (asking Config.twoVariables ["trace"])).runIn emptyWorld).1 = .ok 3 ∧
    ((run (asking Config.twoVariables ["--exe", "bin/tool", "root"])).runIn emptyWorld).1 =
      .ok 2 ∧
    ((run (asking libdirVariables ["find", "/n"])).runIn emptyWorld).1 = .ok 1 ∧
    ((run (asking libdirVariables ["find", "n"])).runIn emptyWorld).1 = .ok 4 := by
  have henv : CommandLine.readRequest ["env"] = .run ⟨false, [], none⟩ .env :=
    readRequest_showingVariables Config.twoVariables
  have htrace : CommandLine.readRequest ["trace"] = .run ⟨false, [], none⟩ (.trace []) := by cbv
  have hroot : CommandLine.readRequest ["--exe", "bin/tool", "root"] =
      .run ⟨false, [], some "bin/tool"⟩ .root := by cbv
  have hrefused : CommandLine.readRequest ["find", "/n"] =
      .run ⟨false, [], none⟩ (.find "/n") := by cbv
  have hfind : CommandLine.readRequest ["find", "n"] = .run ⟨false, [], none⟩ (.find "n") := by cbv
  have hstatus : ∀ {env args executable action},
      Config.ofDisk .empty "/" "/home" "/p" env = .ok Config.ofTwoVariables →
      CommandLine.readRequest args = .run ⟨false, [], executable⟩ action →
      let context := (asking env args).contextWith ⟨false, [], executable⟩ "/" Config.ofTwoVariables
      let started := stillStarted Config.ofTwoVariables emptyWorld
      ((run (asking env args)).runIn emptyWorld).1 = context.exitStatus started action ∧
        ∀ located after, context.locate.runIn started = (.ok located, after) →
          ((∃ failure, context.scan started action = .error failure) ↔
            Context.ScanFails after.disk after.cwd located.searchPath action) ∧
          (context.scan started action = .ok false ↔
            Context.ScanFindsNothing after.disk after.cwd located.searchPath action) := by
    intro env args executable action hconfig hrequest context start
    have hasked : CommandLine.readRequest (asking env args).userArguments =
        .run ⟨false, [], executable⟩ action := hrequest
    obtain ⟨loaded, hload, hprepared⟩ := runIn_prepare_asking hconfig args executable
    obtain ⟨_, opened, hopening⟩ := (Journal.succeeds_configure_none "/p").exists_ok loaded
    obtain ⟨-, hloaded⟩ := exitStatus_run hasked emptyWorld
    obtain ⟨-, hopened⟩ := hloaded Config.ofTwoVariables loaded hload
    obtain ⟨started, hprepare, houtcome, hscan⟩ := hopened opened hopening
    have hstill := hprepare.symm.trans hprepared
    obtain rfl : started = start := congrArg Prod.snd hstill
    exact ⟨houtcome, hscan⟩
  have hlocate : ∀ {args}, ((asking libdirVariables args).contextWith ⟨false, [], none⟩ "/"
      Config.ofTwoVariables).locate.runIn (stillStarted Config.ofTwoVariables emptyWorld) =
        (.ok ofLibdir, stillStarted Config.ofTwoVariables emptyWorld) := fun {args} ↦
    runIn_locate_asking (isQuiet_stillStarted _ _) rfl rfl args none
  refine ⟨henv, htrace, hroot, hrefused, hfind, (hstatus Config.ofDisk_twoVariables henv).1,
    (hstatus Config.ofDisk_twoVariables htrace).1, ?_, ?_, ?_⟩
  · exact (hstatus Config.ofDisk_twoVariables hroot).1.trans (congrArg Except.ok (if_pos rfl))
  · obtain ⟨houtcome, hscan⟩ := hstatus ofDisk_libdirVariables hrefused
    obtain ⟨failure, hfails⟩ := (hscan _ _ hlocate).1.2
      ⟨[], "/lib", [], rfl, fun _ hdir ↦ absurd hdir List.not_mem_nil, .inr (.inl rfl)⟩
    refine houtcome.trans (congrArg Except.ok ?_)
    rw [Context.locatingStatus_of_starts rfl rfl, hfails]
  · obtain ⟨houtcome, hscan⟩ := hstatus ofDisk_libdirVariables hfind
    have hnothing := (hscan _ _ hlocate).2.2 fun dir hdir ↦ by
      obtain rfl := List.mem_singleton.1 hdir
      exact isPassedOver_libdir
    refine houtcome.trans (congrArg Except.ok ?_)
    rw [Context.locatingStatus_of_starts rfl rfl, hnothing]

/-- **A failure to load need not have the status of a configuration fault.** -/
theorem exitStatus_run_unmeasurable :
    (∃ cause after, (Config.load "/p" Config.unmeasurableEnvironment).runIn emptyWorld =
      (.error (.inconvertible cause), after)) ∧
    ((run (showingVariables Config.unmeasurableEnvironment)).runIn emptyWorld).1 = .ok 1 := by
  obtain ⟨cause, hcause⟩ := Config.exists_cause_unmeasurable
  have hload := runIn_load_of_error (w := emptyWorld) hcause
  refine ⟨⟨cause, _, hload⟩, ?_⟩
  have hdirectory : Path.resolve "/" ["/p"] = "/p" := by decide
  have hprepare : (prepare (showingVariables Config.unmeasurableEnvironment)
      ⟨false, [], none⟩).runIn emptyWorld = (.error (.inconvertible cause), emptyWorld) :=
    runIn_prepare_of_load_error (hdirectory ▸ hload)
  rw [outcome_run_of_request (readRequest_showingVariables _), outcome_runAction_of_error hprepare]
  exact statusOf_inconvertible cause

end Program

end ResourceLocator
