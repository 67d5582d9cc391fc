import ResourceLocator.Program.Action

/-!
# Running the program

A run answers with an exit status. A failure that no command deals with is shown on the console
and noted in the debug log, unless it comes from a command line that has already explained
itself.
-/

namespace ResourceLocator.Program

/-- The arguments of the user: those after the program and the entry script. -/
def Invocation.userArguments (invocation : Invocation) : List String :=
  invocation.arguments.drop 2

/-- Whether a failure has been explained already. -/
def isExplained : Failure → Bool
  | .outside (.error (.usage _) _ _) => true
  | _ => false

/-- The entry made for a failure. -/
def failedNote (reason : String) : Note :=
  ⟨.error, "cli", "Command failed", [("error", .text reason)]⟩

/-- Explains a failure. -/
def explain (failure : Failure) : Session Unit := do
  if !isExplained failure then
    let reason ← Session.messageOf failure
    Console.log .error reason
    Journal.write (failedNote reason)

/-- Runs a command. -/
def runAction (invocation : Invocation) (options : CommandLine.Options)
    (action : CommandLine.Action) : Session Int :=
  tryCatch (do
    let context ← prepare invocation options
    return (← perform context action).toInt) fun failure ↦ do
      explain failure
      return failure.exitCode

/-- Runs the program. -/
def run (invocation : Invocation) : Session Int := do
  match CommandLine.readRequest invocation.userArguments with
  | .answer text =>
    Session.print text
    return ExitCode.success.toInt
  | .refuse complaint =>
    Session.printError complaint.message
    return ExitCode.general.toInt
  | .run options action => runAction invocation options action

/-- Runs the program as the process is started. -/
def runProcess : Session Int := do
  let w ← get
  run ⟨w.argv, w.env, w.cwd⟩

end ResourceLocator.Program
