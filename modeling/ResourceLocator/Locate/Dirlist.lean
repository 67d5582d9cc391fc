import ResourceLocator.Path
import ResourceLocator.Text.Blank

/-!
# Directory lists

A file `dirlist` in a directory names further directories, one to a line. Blanks around a line
do not count, and lines that are empty or start with `#` are left out. A relative path is read
from the directory that holds the file; the directories that it names are taken as they are,
whatever lists they hold themselves.
-/

namespace ResourceLocator.Dirlist

/-- The name of the file. -/
def fileName : String := "dirlist"

/-- The lines of a text that name a directory. -/
def entries (content : String) : List String :=
  let lines := (Text.lines content.toList).map Text.trim
  (lines.filter fun line ↦ !line.isEmpty && line.head? != some '#').map String.ofList

/-- The directories that the text of a list in the directory `base` names. -/
def parse (cwd content base : String) : List String :=
  (entries content).map fun entry ↦ Path.resolve cwd [base, entry]

/-- Each directory, followed by those that its own list names. -/
def expand {m : Type → Type} [Monad m] (cwd : String) (readText : String → m (Option String))
    (dirs : List String) : m (List String) := do
  let parts ← dirs.mapM fun dir ↦ do
    match ← readText (Path.join [dir, fileName]) with
    | none => return [dir]
    | some content => return dir :: parse cwd content dir
  return parts.flatten

end ResourceLocator.Dirlist
