import ResourceLocator.Failure
import ResourceLocator.Path

/-!
# The path of the executable

The executable is the entry script of the process unless another path is given for it. A path
that is given has to be absolute; the entry script may be relative to a directory, which is read
from the working directory in turn.
-/

namespace ResourceLocator.Executable

/-- The entry script of a process, from its arguments; `dir` is what a relative one is read
from. -/
def ofArguments (cwd dir : String) (args : List String) : Except Failure String :=
  match args[1]? with
  | none | some "" => .error (.startup .noEntryScript)
  | some entry => .ok (if Path.isAbsolute entry then entry else Path.resolve cwd [dir, entry])

/-- A path that is given. -/
def ofPath (path : String) : Except Failure String :=
  if Path.isAbsolute path then .ok path else .error (.startup (.relativeOverride path))

end ResourceLocator.Executable
