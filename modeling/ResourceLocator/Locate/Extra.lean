import ResourceLocator.Text.Pieces

/-!
# Extra directories

A variable of the environment adds directories at the end of the search path: the pieces of its
value between colons and semicolons, each once, where it occurs first. Empty pieces do not
count, and only those that are directories are added.
-/

namespace ResourceLocator.Extra

/-- The characters between the pieces. -/
def isSeparator (c : Char) : Bool := c == ':' || c == ';'

/-- A list without the items that are in `seen` or occur earlier. -/
def distinctFrom (seen : List String) : List String → List String
  | [] => []
  | x :: xs =>
    if seen.contains x then distinctFrom seen xs else x :: distinctFrom (x :: seen) xs

/-- The distinct pieces of a value, in the order in which they occur first. -/
def pieces (raw : String) : List String :=
  distinctFrom [] ((Text.split isSeparator raw).filter (· ≠ ""))

/-- The pieces that pass a test, each tested once and in order. -/
def select {m : Type → Type} [Monad m] (isDirectory : String → m Bool) :
    List String → m (List String)
  | [] => return []
  | piece :: rest => do
    let passes ← isDirectory piece
    let more ← select isDirectory rest
    return if passes then piece :: more else more

/-- The directories that a value adds; an absent value adds none. -/
def parse {m : Type → Type} [Monad m] (isDirectory : String → m Bool) (raw : Option String) :
    m (List String) :=
  select isDirectory ((raw.map pieces).getD [])

end ResourceLocator.Extra
