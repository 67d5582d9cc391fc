import ResourceLocator.Proofs.CommandLine.Scan
import ResourceLocator.Proofs.Trace.Run

/-!
# The child process of a trace

A trace command starts one child process (`TraceCommand.starts_run`), and everything around it
preserves what has been started (`Session.Starts`); so a run that is asked for the trace tool starts
one process, and no other run starts any.

The process has the arguments of the trace command and then those of the user that are not the
program's own (`runs_run_trace`): the flags of the program are taken by it even behind the name of
the command.
-/

namespace ResourceLocator

open Session

namespace Program

variable {w started loaded opened : World} {invocation : Invocation}
  {options : CommandLine.Options} {context : Context} {config : Config} {tool : TraceTool}
  {args : List String}

/-- The child process that a trace tool is, with arguments of the user. -/
def traceRun (tool : TraceTool) (env : Environment) (args : List String) (directory : String) :
    ChildRun :=
  ⟨(tool.command env).command, (tool.command env).args ++ args, directory⟩

theorem starts_trace (h : context.config.traceTool = some tool) (args : List String) :
    Starts (traceRun tool context.env args context.directory) (trace context args) := by
  rw [trace, h]
  refine .of_bind (Console.succeeds_log _ _) (Console.preserves_log _ _).runs fun _ ↦ ?_
  have hprint : ∀ text, Preserves World.runs (Session.print text) := fun _ ↦
    preserves_modify fun _ ↦ rfl
  exact ((tool.command context.env).starts_run args context.directory).bind fun _ ↦
    (hprint _).bind fun _ ↦ preserves_pure _

/-- **A trace that has been prepared starts its child process**, and nothing else does. -/
theorem runs_runAction_trace
    (hprepare : (prepare invocation options).runIn w = (.ok context, started))
    (htool : context.config.traceTool = some tool) (args : List String) :
    ((runAction invocation options (.trace args)).runIn w).2.runs =
      w.runs ++ [traceRun tool context.env args context.directory] := by
  have hstarted := (preserves_prepare invocation options).runs.eq_of_runIn hprepare
  have hran := reported_runAction_of_ok hprepare (.trace args)
  rw [World.runs_eq_of_reported_eq hran, ← hstarted]
  exact starts_trace htool args started

theorem runs_run_of_request
    (hrequest : CommandLine.readRequest invocation.userArguments = .run options (.trace args))
    (hload : (Config.load (Path.resolve w.cwd [invocation.directory]) invocation.env).runIn w =
      (.ok config, loaded)) (htool : config.traceTool = some tool)
    (hopening : (opening invocation options w.cwd config).runIn loaded = (.ok (), opened)) :
    ((run invocation).runIn w).2.runs = w.runs ++
      [traceRun tool invocation.env args (Path.resolve w.cwd [invocation.directory])] := by
  obtain ⟨started, hprepare⟩ := exists_runIn_prepare hload hopening
  rw [run_of_request hrequest]
  exact runs_runAction_trace hprepare htool args

/-- A request that is no command starts nothing. -/
theorem runs_run_of_ends {request : CommandLine.Request}
    (hrequest : CommandLine.readRequest invocation.userArguments = request)
    (hends : CommandLine.Ends args request) (w : World) :
    ((run invocation).runIn w).2.runs = w.runs := by
  cases hends with
  | version => simp only [run, hrequest]; rfl
  | missing => simp only [run, hrequest]; rfl

/-- How the program is started to run the trace tool with some arguments. -/
def tracing (node entry : String) (args : List String) (env : Environment) (directory : String) :
    Invocation :=
  ⟨node :: entry :: CommandLine.Command.trace.name :: args, env, directory⟩

/-- **The child process of a run that traces.** The arguments are settings of the program with
others between them, and then one process is started, with the others, unchanged and in order; or
they end for the program before, and no process is started. If none is for the program, all of them
are given to the process. -/
theorem runs_run_trace (node entry : String) (env : Environment) (directory : String) (w : World)
    (hdashes : "--" ∉ args) (hshort : "-h" ∉ args) (hlong : "--help" ∉ args) :
    let invocation := tracing node entry args env directory
    let runs := ((run invocation).runIn w).2.runs
    let dir := Path.resolve w.cwd [directory]
    (∀ settings kept, CommandLine.Mixes args settings kept →
      ∀ config loaded opened tool, (Config.load dir env).runIn w = (.ok config, loaded) →
        config.traceTool = some tool →
        (opening invocation (.ofSettings settings) w.cwd config).runIn loaded = (.ok (), opened) →
        runs = w.runs ++
          [⟨(tool.command env).command, (tool.command env).args ++ kept, dir⟩]) ∧
    (∀ request, CommandLine.Ends args request → runs = w.runs) ∧
    ((∃ settings kept, CommandLine.Mixes args settings kept) ∨
      ∃ request, CommandLine.Ends args request) ∧
    ((∀ arg ∈ args, ¬CommandLine.IsOwn arg) → CommandLine.Mixes args [] args) := by
  intro invocation runs dir
  refine ⟨fun settings kept hmixes config loaded opened tool hload htool hopening ↦ ?_,
    fun request hends ↦ ?_, CommandLine.mixes_or_ends args,
    CommandLine.Mixes.of_forall_not_isOwn⟩
  · have hrequest : CommandLine.readRequest invocation.userArguments =
        .run (.ofSettings settings) (.trace kept) :=
      CommandLine.readRequest_trace_of_mixes hdashes hmixes hshort hlong
    exact runs_run_of_request hrequest hload htool hopening
  · have hrequest : CommandLine.readRequest invocation.userArguments = request :=
      CommandLine.readRequest_trace_of_ends hdashes hends
    exact runs_run_of_ends hrequest hends w

section Small

/-- Variables that make a configuration with a trace tool. -/
def traceVariables : Environment :=
  .ofList [("RELOC_PACKAGE", "tool"), ("RELOC_API_VERSION", "2"),
    ("RELOC_TRACE_TOOL_ENV_VAR", "AUTOM4TE"), ("RELOC_TRACE_TOOL_COMPANION", "autom4te")]

/-- The configuration of these variables. -/
def ofTraceVariables : Config :=
  { Config.ofTwoVariables with traceTool := some ⟨"AUTOM4TE", "autom4te"⟩ }

theorem ofDisk_traceVariables :
    Config.ofDisk .empty "/" "/home" "/p" traceVariables = .ok ofTraceVariables := by
  have hlower := Config.readValid_of_not_there (Config.not_isThere_home traceVariables rfl)
  have hupper := Config.readValid_of_not_there Config.not_isThere_project
  rw [Config.ofDisk, Config.mergedFields_of_accepted hlower hupper]
  rfl

/-- No debug log is opened. -/
theorem exists_runIn_opening (invocation : Invocation) (includes : List String) (w : World) :
    ∃ opened, (opening invocation ⟨false, includes, none⟩ "/" ofTraceVariables).runIn w =
      (.ok (), opened) := by
  obtain ⟨_, opened, hopening⟩ :=
    (Journal.succeeds_configure_none (Path.resolve "/" [invocation.directory])).exists_ok w
  exact ⟨opened, hopening⟩

end Small

/-- A directory that is asked for before other arguments is not given to the process. -/
theorem runs_run_trace_of_include :
    let args := ["-I", "m4", "--trace=AC_INIT", "configure.ac"]
    "--" ∉ args ∧ "-h" ∉ args ∧ "--help" ∉ args ∧
    CommandLine.Mixes args [(.includeDir, "m4")] ["--trace=AC_INIT", "configure.ac"] ∧
    ((run (tracing "node" "/r" args traceVariables "/p")).runIn emptyWorld).2.runs =
      [⟨"/usr/bin/env", ["autom4te", "--trace=AC_INIT", "configure.ac"], "/p"⟩] := by
  intro args
  have hdashes : "--" ∉ args := by decide
  have hshort : "-h" ∉ args := by decide
  have hlong : "--help" ∉ args := by decide
  have hmixes : CommandLine.Mixes args [(.includeDir, "m4")]
      ["--trace=AC_INIT", "configure.ac"] :=
    .own (.apart "m4" (by decide) (by decide) (by decide))
      (.other (fun h ↦ CommandLine.read_ne_text h (by decide))
        (.other (fun h ↦ CommandLine.read_ne_text h (by decide)) .nil))
  obtain ⟨loaded, hload⟩ := runIn_load_of_ok (w := emptyWorld) ofDisk_traceVariables
  obtain ⟨opened, hopening⟩ := exists_runIn_opening
    (tracing "node" "/r" args traceVariables "/p") ["m4"] loaded
  obtain ⟨hruns, -⟩ :=
    runs_run_trace "node" "/r" traceVariables "/p" emptyWorld hdashes hshort hlong
  exact ⟨hdashes, hshort, hlong, hmixes, hruns _ _ hmixes _ _ _ _ hload rfl hopening⟩

/-- **Not every argument is given to the process**: a directory that is asked for behind the name of
the command is the program's. -/
theorem runs_run_trace_ne :
    let args := ["-I", "m4", "configure.ac"]
    let invocation := tracing "node" "/r" args traceVariables "/p"
    "--" ∉ args ∧ "-h" ∉ args ∧ "--help" ∉ args ∧
    (∃ loaded opened, (Config.load "/p" traceVariables).runIn emptyWorld =
        (.ok ofTraceVariables, loaded) ∧
      (opening invocation ⟨false, ["m4"], none⟩ "/" ofTraceVariables).runIn loaded =
        (.ok (), opened)) ∧
    ofTraceVariables.traceTool = some ⟨"AUTOM4TE", "autom4te"⟩ ∧
    TraceTool.command ⟨"AUTOM4TE", "autom4te"⟩ traceVariables =
      ⟨"/usr/bin/env", ["autom4te"], .companion⟩ ∧
    ((run invocation).runIn emptyWorld).2.runs ≠
      emptyWorld.runs ++ [⟨"/usr/bin/env", ["autom4te"] ++ args, "/p"⟩] := by
  intro args invocation
  have hrequest : CommandLine.readRequest invocation.userArguments =
      .run ⟨false, ["m4"], none⟩ (.trace ["configure.ac"]) := by
    have hwords : CommandLine.readRequest ["trace", "-I", "m4", "configure.ac"] =
        .run ⟨false, ["m4"], none⟩ (.trace ["configure.ac"]) := by cbv
    exact hwords
  obtain ⟨loaded, hload⟩ := runIn_load_of_ok (w := emptyWorld) ofDisk_traceVariables
  obtain ⟨opened, hopening⟩ := exists_runIn_opening invocation ["m4"] loaded
  have htool : ofTraceVariables.traceTool = some ⟨"AUTOM4TE", "autom4te"⟩ := rfl
  have hcommand : TraceTool.command ⟨"AUTOM4TE", "autom4te"⟩ traceVariables =
      ⟨"/usr/bin/env", ["autom4te"], .companion⟩ := by cbv
  refine ⟨by decide, by decide, by decide, ⟨loaded, opened, hload, hopening⟩, htool, hcommand, ?_⟩
  have hdirectory : Path.resolve emptyWorld.cwd [invocation.directory] = "/p" := by decide
  have hasked : (Config.load (Path.resolve emptyWorld.cwd [invocation.directory])
      invocation.env).runIn emptyWorld = (.ok ofTraceVariables, loaded) := by
    rw [hdirectory]
    exact hload
  rw [runs_run_of_request hrequest hasked htool hopening, hdirectory]
  decide

end Program

end ResourceLocator
