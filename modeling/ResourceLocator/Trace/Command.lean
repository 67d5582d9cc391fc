import ResourceLocator.Config.Basic
import ResourceLocator.Text.Blank

/-!
# Trace commands

The trace tool is started by the words of its variable, if there are any, and else by the
launcher with the companion as its argument.
-/

namespace ResourceLocator

/-- Where a trace command comes from. -/
inductive TraceSource where
  /-- From the variable. -/
  | override
  /-- From the companion. -/
  | companion
  deriving DecidableEq, Repr

/-- The name of the origin of a trace command. -/
def TraceSource.name : TraceSource → String
  | .override => "env"
  | .companion => "default"

/-- A trace command. -/
structure TraceCommand where
  /-- The program. -/
  command : String
  /-- Its first arguments. -/
  args : List String
  /-- Where the command comes from. -/
  source : TraceSource
  deriving DecidableEq, Repr

/-- The program that finds a companion. -/
def launcher : String := "/usr/bin/env"

/-- The command that starts a trace tool. -/
def TraceTool.command (tool : TraceTool) (env : Environment) : TraceCommand :=
  match Text.words ((env tool.variableName).getD "") with
  | [] => ⟨launcher, [tool.companion], .companion⟩
  | command :: args => ⟨command, args, .override⟩

/-- A command in one line. -/
def TraceCommand.line (trace : TraceCommand) : String :=
  String.intercalate " " (trace.command :: trace.args)

end ResourceLocator
