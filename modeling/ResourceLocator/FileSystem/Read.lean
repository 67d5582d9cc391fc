import ResourceLocator.FileSystem.Walk

/-!
# Calls that read

Each call takes a path as its caller gives it, walks it, and answers or fails; a failure shows
the path. `realpath` follows its path by hand: it takes the lexical location of the path,
examines every directory on the way to it, and puts the target of the first link it meets in
the place of what led there, until no link is left.
-/

namespace ResourceLocator.FileSystem

/-- The failure of a call that shows its path. -/
def failing {α : Type} (call path : String) (errno : Errno) : Except CallFault α :=
  .error ⟨errno, call, some path⟩

/-- The outcome of a walk, as that of a call. -/
def asCall {α : Type} (call path : String) : Except Errno α → Except CallFault α
  | .ok a => .ok a
  | .error errno => failing call path errno

/-- The node at the end of a path. -/
def nodeAt (fs : FileSystem) (cwd : String) (last : LastName) (path : String) :
    Except Errno Node := do
  let loc ← fs.walk cwd last path
  match fs.node? loc with
  | some node => return node
  | none => .error .missing

/-- Examines what a path leads to, through links. -/
def stat (fs : FileSystem) (cwd path : String) : Except CallFault Node :=
  asCall "stat" path (fs.nodeAt cwd .followLink path)

/-- Whether anything is at the end of a path. -/
def exists? (fs : FileSystem) (cwd path : String) : Bool :=
  match fs.stat cwd path with
  | .ok _ => true
  | .error _ => false

/-- The text of a file. -/
def readText (fs : FileSystem) (cwd path : String) : Except CallFault String := do
  match ← asCall "open" path (fs.nodeAt cwd .followLink path) with
  | .file text false => return text
  | .directory false => .error ⟨.isDirectory, "read", none⟩
  | .link _ => failing "open" path .tooManyLinks
  | .file _ true => failing "open" path .denied
  | .directory true => failing "open" path .denied

/-- The names in a directory, in the order of their units. -/
def list (fs : FileSystem) (cwd path : String) : Except CallFault (List String) := do
  let loc ← asCall "scandir" path (fs.walk cwd .followLink path)
  match fs.node? loc with
  | some (.directory false) => return fs.childNames loc
  | some (.directory true) => failing "scandir" path .denied
  | _ => failing "scandir" path .notDirectory

/-- How many links `realpath` replaces. Each can be followed by a walk, so that only links
whose targets take back, with `..`, what a walk goes through could need more. -/
def maxReplacements : Nat := 10000

/-- Canonicalizes a location: `done` holds no link, and `names` are still to be examined. -/
def realpathFrom (fs : FileSystem) (cwd : String) :
    Nat → Location → List String → Except CallFault Location
  | _, done, [] => .ok done
  | budget, done, name :: rest => do
    let here := done ++ [name]
    let shown := here.toPath
    match ← asCall "lstat" shown (fs.nodeAt cwd .keepLink shown) with
    | .link target =>
      let _ ← fs.stat cwd shown
      match budget with
      | 0 => failing "stat" shown .tooManyLinks
      | budget + 1 => realpathFrom fs cwd budget [] (done.descend target ++ rest)
    | _ => realpathFrom fs cwd budget here rest
termination_by budget _ names => (budget, names.length)

/-- The absolute path without links of what a path leads to. -/
def realpath (fs : FileSystem) (cwd path : String) : Except CallFault String :=
  (realpathFrom fs cwd maxReplacements [] (Path.locate cwd [path])).map Location.toPath

end ResourceLocator.FileSystem
