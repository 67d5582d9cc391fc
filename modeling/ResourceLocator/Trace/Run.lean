import ResourceLocator.Log.Console
import ResourceLocator.Log.Journal
import ResourceLocator.Trace.Command

/-!
# Running the trace tool

A trace tool that is not there is no failure: it is reported, and its output is empty. The
launcher tells by its exit status that it has not found a program. Whatever else comes of the
run goes to the caller.
-/

namespace ResourceLocator

/-- The exit status of a launcher that has not found its program. -/
def notFoundStatus : Number := Number.ofInt 127

/-- What comes of a trace tool. -/
structure TraceResult where
  /-- Whether it was found. -/
  ran : Bool
  /-- What it wrote. -/
  output : String
  deriving DecidableEq, Repr

namespace TraceCommand

/-- Whether a failure says that the program is not there. -/
def meansNotFound (failure : Failure) : Bool :=
  failure.code? == some Errno.missing.code || failure.status?.any (·.same notFoundStatus)

/-- Runs a trace command with further arguments in a directory. -/
def run (trace : TraceCommand) (extraArgs : List String) (dir : String) :
    Session TraceResult := do
  let args := trace.args ++ extraArgs
  let shown : Fields := [("command", .text trace.command), ("args", Value.ofTexts args)]
  Journal.write ⟨.debug, "trace", "Running trace tool", shown ++ [("cwd", .text dir)]⟩
  tryCatch (do return ⟨true, ← Session.execute ⟨trace.command, args, dir⟩⟩) fun failure ↦ do
    if meansNotFound failure then
      Console.log .warn ("Trace tool not found: " ++ trace.line)
      Journal.write ⟨.error, "trace", "Trace tool not found", shown⟩
      return ⟨false, ""⟩
    else throw failure

end TraceCommand

end ResourceLocator
