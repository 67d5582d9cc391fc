import ResourceLocator.Failure
import ResourceLocator.Path

/-!
# Resources

A resource is a file in a directory of a search path. `Resource.find` looks a name up and
`Resource.list` shows all that can be seen: a file hides those of the same name in directories
of lower priority. A name may have several parts but has to stay inside the directory.
-/

namespace ResourceLocator

/-- A file found in a directory of a search path. -/
structure Resource where
  /-- Its name, relative to the directory. -/
  name : String
  /-- Its path. -/
  path : String
  /-- The directory. -/
  dir : String
  deriving DecidableEq, Repr

namespace Resource

/-- Whether a name stays inside a directory. -/
def isInside (cwd dir name : String) : Bool :=
  name ≠ "" && !Path.isAbsolute name && Path.contains cwd dir (Path.join [dir, name])

/-- The first file of a name in the order of the search path. The name is refused in the first
directory that it does not stay inside of. -/
def find {m : Type → Type} [Monad m] [MonadExceptOf Failure m] (cwd : String)
    (isFile : String → m Bool) (name : String) : List String → m (Option Resource)
  | [] => return none
  | dir :: rest => do
    if !isInside cwd dir name then throw (.resourceName name)
    let path := Path.join [dir, name]
    if ← isFile path then return some ⟨name, path, dir⟩
    else find cwd isFile name rest

/-- The extension that an option asks for, with its dot; an empty option asks for none. -/
def wantedExtension? (option : Option String) : Option String :=
  (option.filter (· ≠ "")).map fun e ↦ if e.toList.head? == some '.' then e else "." ++ e

/-- Whether a name has the extension that is wanted, if one is. -/
def hasExtension (wanted : Option String) (name : String) : Bool :=
  match wanted with
  | none => true
  | some extension => Path.extname name == extension

/-- The resources of one directory whose names are not in `seen`. -/
def listIn {m : Type → Type} [Monad m] (isFile : String → m Bool) (wanted : Option String)
    (dir : String) (seen : List String) : List String → m (List Resource)
  | [] => return []
  | name :: rest => do
    if seen.contains name || !hasExtension wanted name then
      listIn isFile wanted dir seen rest
    else
      let path := Path.join [dir, name]
      if ← isFile path then
        let more ← listIn isFile wanted dir (name :: seen) rest
        return ⟨name, path, dir⟩ :: more
      else listIn isFile wanted dir seen rest

/-- The resources of the directories whose names are not in `seen`. -/
def listFrom {m : Type → Type} [Monad m] (entries : String → m (List String))
    (isFile : String → m Bool) (wanted : Option String) (seen : List String) :
    List String → m (List Resource)
  | [] => return []
  | dir :: rest => do
    let found ← listIn isFile wanted dir seen (← entries dir)
    let more ← listFrom entries isFile wanted (found.map (·.name) ++ seen) rest
    return found ++ more

/-- The resources that can be seen along a search path, of one extension if an option asks for
it. -/
def list {m : Type → Type} [Monad m] (entries : String → m (List String))
    (isFile : String → m Bool) (extension : Option String) (searchPath : List String) :
    m (List Resource) :=
  listFrom entries isFile (wantedExtension? extension) [] searchPath

end Resource

end ResourceLocator
