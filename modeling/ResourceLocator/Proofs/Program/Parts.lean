import ResourceLocator.Proofs.Locate.Parts
import ResourceLocator.Proofs.Program.Exit

/-!
# What a run is made of

Loading the configuration, performing a command and explaining a failure are made of few acts: to
ask the surroundings, to make an entry in the debug log, to show something on the console, and to
start a process. Only opening the debug log and setting the threshold of the console are something
else. The program does both while it prepares a command, between loading the configuration and
performing the command (`Program.prepare_eq`). What a run does from then on does not depend on how
it has come there (`Program.runIn_runAction_of_prepare`).
-/

namespace ResourceLocator

open Session

/-- An act of a run. -/
inductive Session.Deed : ∀ ⦃α : Type⦄, Session α → Prop where
  /-- The surroundings are asked, or an entry is made. -/
  | inquiry {α : Type} {session : Session α} (h : Inquiry session) : Deed session
  /-- A message is logged on the console. -/
  | log (level : Level) (message : String) : Deed (Console.log level message)
  /-- Something is written to the standard output. -/
  | print (text : String) : Deed (Session.print text)
  /-- A label and a value are written. -/
  | status (label value : String) (colour : Colour) : Deed (Console.status label value colour)
  /-- A process is started. -/
  | execute (run : ChildRun) : Deed (Session.execute run)

namespace Session

variable {α : Type}

theorem madeOf_ofExcept (outcome : Except Failure α) : MadeOf Deed (Session.ofExcept outcome) :=
  .act (.inquiry (.ask (fun _ _ _ ↦ outcome) fun w ↦ runIn_ofExcept outcome w))

theorem madeOf_pure (a : α) : MadeOf Deed (pure a : Session α) := madeOf_ofExcept (.ok a)

theorem madeOf_throw (failure : Failure) : MadeOf Deed (throw failure : Session α) :=
  madeOf_ofExcept (.error failure)

theorem madeOf_write (note : Note) : MadeOf Deed (Journal.write note) :=
  .act (.inquiry (.note note))

theorem madeOf_log (level : Level) (message : String) :
    MadeOf Deed (Console.log level message) :=
  .act (.log level message)

end Session

theorem Config.madeOf_load (dir : String) (env : Environment) :
    MadeOf Deed (load dir env) := by
  -- The surroundings are asked for at once, and nothing else of the world is.
  have hload : load dir env = (do let w ← get; return (w.disk, w.cwd, w.home)) >>= fun
      (disk, cwd, home) ↦ Session.ofExcept (ofDisk disk cwd home dir env) >>= fun config ↦
        Journal.write (loadedNote (globalPath home env) (projectPath cwd dir) config) >>= fun _ ↦
          pure config := rfl
  rw [hload]
  exact .bind (.act (.inquiry (.ask (fun disk cwd home ↦ .ok (disk, cwd, home)) fun _ ↦ rfl)))
    fun _ ↦ .bind (madeOf_ofExcept _) fun _ ↦ .bind (madeOf_write _) fun config ↦ madeOf_pure _

theorem TraceCommand.madeOf_run (command : TraceCommand) (args : List String) (dir : String) :
    MadeOf Deed (command.run args dir) :=
  .bind (madeOf_write _) fun _ ↦
    .tryCatch (.bind (.act (.execute _)) fun _ ↦ madeOf_pure _) fun failure ↦
      .ite (.bind (madeOf_log _ _) fun _ ↦ .bind (madeOf_write _) fun _ ↦ madeOf_pure _)
        (madeOf_throw failure)

namespace Program

variable (context : Context)

theorem madeOf_locate : MadeOf Deed context.locate :=
  context.madeOf_locate.trans fun h ↦ .act (.inquiry h.inquiry)

theorem madeOf_forM_output {α : Type} (line : α → String) (items : List α) :
    MadeOf Deed (items.forM fun item ↦ Console.output (line item)) :=
  .forM (madeOf_pure ()) fun _ ↦ .act (.print _)

theorem madeOf_showRoot : MadeOf Deed (showRoot context) :=
  .bind (madeOf_locate context) fun located ↦ .bind (madeOf_log _ _) fun _ ↦
    have hlines : MadeOf Deed (located.root.dirs.forM Console.output >>= fun _ ↦
        pure ExitCode.success) :=
      .bind (madeOf_forM_output id located.root.dirs) fun _ ↦ madeOf_pure _
    .ite (.bind (madeOf_log _ _) fun _ ↦ hlines) hlines

theorem madeOf_showPath (withLayers : Bool) : MadeOf Deed (showPath context withLayers) :=
  .bind (madeOf_locate context) fun _ ↦
    .ite (.bind (madeOf_forM_output _ _) fun _ ↦ madeOf_pure _)
      (.bind (madeOf_forM_output id _) fun _ ↦ madeOf_pure _)

theorem madeOf_findResource (name : String) : MadeOf Deed (findResource context name) := by
  refine .bind (madeOf_locate context) fun located ↦ ?_
  -- Asking for the working directory belongs to the question.
  refine @MadeOf.bind Deed _ _ (get >>= fun w ↦
    Resource.find w.cwd Session.probe.isFile name located.searchPath) _ ?_ fun found ↦ ?_
  · exact .act (.inquiry (.ask
      (fun disk cwd _ ↦ Resource.find cwd (disk.probe cwd).isFile name located.searchPath) fun w ↦
        (runIn_bind_of_ok (runIn_get w) _).trans (Resource.runIn_find w.cwd name _ w)))
  · cases found with
    | none => exact .bind (madeOf_log _ _) fun _ ↦ madeOf_pure _
    | some resource => exact .bind (.act (.print _)) fun _ ↦ madeOf_pure _

theorem madeOf_listResources (extension : Option String) :
    MadeOf Deed (listResources context extension) := by
  refine .bind (madeOf_locate context) fun located ↦ ?_
  refine .bind (.act (.inquiry (.ask (fun disk cwd _ ↦ Resource.list (disk.probe cwd).entries
    (disk.probe cwd).isFile extension located.searchPath) fun w ↦
      Resource.runIn_list located.searchPath extension w))) fun resources ↦ ?_
  have hlines : MadeOf Deed ((resources.forM fun resource ↦ Console.output resource.path) >>=
      fun _ ↦ pure ExitCode.success) :=
    .bind (madeOf_forM_output _ resources) fun _ ↦ madeOf_pure _
  exact .ite (.bind (madeOf_log _ _) fun _ ↦ hlines) hlines

theorem madeOf_showVariables : MadeOf Deed (showVariables context) := by
  refine .bind (.forM (madeOf_pure ()) fun name ↦ ?_) fun _ ↦ madeOf_pure _
  cases context.env.nonempty? name with
  | none => exact .act (.status _ _ _)
  | some value => exact .act (.status _ _ _)

theorem madeOf_trace (args : List String) : MadeOf Deed (trace context args) := by
  rw [trace]
  cases context.config.traceTool with
  | none => exact .bind (madeOf_log _ _) fun _ ↦ madeOf_pure _
  | some tool =>
    exact .bind (madeOf_log _ _) fun _ ↦ .bind (TraceCommand.madeOf_run _ _ _) fun _ ↦
      .bind (.act (.print _)) fun _ ↦ madeOf_pure _

/-- **What performing a command is made of.** -/
theorem madeOf_perform (action : CommandLine.Action) : MadeOf Deed (perform context action) := by
  cases action with
  | root => exact madeOf_showRoot context
  | path withLayers => exact madeOf_showPath context withLayers
  | find name => exact madeOf_findResource context name
  | list extension => exact madeOf_listResources context extension
  | env => exact madeOf_showVariables context
  | trace args => exact madeOf_trace context args

/-- **What explaining a failure is made of.** -/
theorem madeOf_explain (failure : Failure) : MadeOf Deed (explain failure) :=
  .ite (.bind (madeOf_ofExcept failure.message) fun _ ↦ .bind (madeOf_log _ _) fun _ ↦
    madeOf_write _) (madeOf_pure _)

/-! ### Preparing a command -/

/-- Sets the threshold of the console for a command, and makes the entry that it starts. -/
def announce (invocation : Invocation) (options : CommandLine.Options) (cwd : String)
    (config : Config) : Session Unit := do
  let isVerbose := options.isVerbose || config.verbose
  if isVerbose then
    Journal.setVerbose true
    Console.setThreshold .debug
  else
    Console.setThreshold config.logLevel
  Journal.write (startNote (invocation.contextWith options cwd config) isVerbose)

/-- **What preparing a command is made of.** -/
theorem prepare_eq (invocation : Invocation) (options : CommandLine.Options) :
    prepare invocation options = do
      let cwd ← World.cwd <$> get
      let config ← Config.load (Path.resolve cwd [invocation.directory]) invocation.env
      opening invocation options cwd config
      announce invocation options cwd config
      return invocation.contextWith options cwd config := by
  unfold prepare announce opening
  simp only [map_eq_pure_bind, bind_assoc, pure_bind]
  congr 1
  funext w
  congr 1
  funext config
  congr 1
  funext _
  split <;> simp only [bind_assoc] <;> rfl

section Prepare

variable {invocation : Invocation} {options : CommandLine.Options} {config : Config}
  {w loaded opened : World}

/-- With a configuration, what is left of preparing a command. -/
theorem runIn_prepare_of_load
    (hload : (Config.load (Path.resolve w.cwd [invocation.directory]) invocation.env).runIn w =
      (.ok config, loaded)) : (prepare invocation options).runIn w = (do
        opening invocation options w.cwd config
        announce invocation options w.cwd config
        return invocation.contextWith options w.cwd config : Session Context).runIn loaded := by
  have hcwd : runIn (World.cwd <$> get) w = (.ok w.cwd, w) := rfl
  rw [prepare_eq, runIn_bind_of_ok hcwd, runIn_bind_of_ok hload]

/-- With the debug log open, what is left of it. -/
theorem runIn_prepare_of_opened
    (hload : (Config.load (Path.resolve w.cwd [invocation.directory]) invocation.env).runIn w =
      (.ok config, loaded))
    (hopening : (opening invocation options w.cwd config).runIn loaded = (.ok (), opened)) :
    (prepare invocation options).runIn w = (do
      announce invocation options w.cwd config
      return invocation.contextWith options w.cwd config : Session Context).runIn opened := by
  rw [runIn_prepare_of_load hload, runIn_bind_of_ok hopening]

/-- **What a run does** depends on how the command is prepared, and on nothing else. -/
theorem runIn_runAction_of_prepare {prepared : Session Context}
    (h : (prepare invocation options).runIn w = prepared.runIn opened)
    (action : CommandLine.Action) : (runAction invocation options action).runIn w =
      (tryCatch (do return (← perform (← prepared) action).toInt) fun failure ↦ do
        explain failure
        return failure.exitCode : Session Int).runIn opened := by
  refine runIn_tryCatch_congr ?_ _
  rcases hprepared : prepared.runIn opened with ⟨outcome, after⟩
  rw [hprepared] at h
  cases outcome with
  | ok context => rw [runIn_bind_of_ok h, runIn_bind_of_ok hprepared]
  | error failure => rw [runIn_bind_of_error h, runIn_bind_of_error hprepared]

end Prepare

end Program

end ResourceLocator
