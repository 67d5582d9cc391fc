import ResourceLocator.FileSystem.Read

/-!
# Calls that write

A file is written where its path leads; nothing needs to be there, as long as the directory
is, and a link to nothing is written through. `makeDirectory` makes all directories that are
missing on the way of a path, and keeps those made before it fails.
-/

namespace ResourceLocator.FileSystem

/-- The location where a file is opened for writing. -/
def openNew (fs : FileSystem) (cwd path : String) : Except Errno Location :=
  if path = "" then .error .missing
  else if pathIsTooLong path then .error .nameTooLong
  else if Path.endsInSlash path then do
    -- No file has a name that ends in a slash, whatever is there.
    match (walkNames path).getLast? with
    | none => .error .isDirectory
    | some _ =>
      let parent ← walkFrom fs .followLink (startOf cwd path) (walkNames path).dropLast
      match fs.node? parent with
      | some (.directory false) => .error .isDirectory
      | some (.directory true) => .error .denied
      | _ => .error .notDirectory
  else walkFrom fs .mayBeNew (startOf cwd path) (walkNames path)

/-- Writes to a file; `change` makes the new text from the old one, which is empty for a new
file. -/
def update (fs : FileSystem) (cwd path : String) (change : String → String) :
    Except CallFault (FileSystem × Location) := do
  let loc ← asCall "open" path (fs.openNew cwd path)
  match fs.node? loc with
  | none => return (fs.set loc (.file (change "") false), loc)
  | some (.file old false) => return (fs.set loc (.file (change old) false), loc)
  | some (.file _ true) => failing "open" path .denied
  | some (.link _) => failing "open" path .tooManyLinks
  | some (.directory _) => failing "open" path .isDirectory

/-- Puts a text in place of what a file holds. -/
def write (fs : FileSystem) (cwd path text : String) :
    Except CallFault (FileSystem × Location) :=
  fs.update cwd path fun _ ↦ text

/-- Puts a text after what a file holds. -/
def append (fs : FileSystem) (cwd path text : String) :
    Except CallFault (FileSystem × Location) :=
  fs.update cwd path (· ++ text)

/-- The outcome of making directories: the file system afterwards, the locations of those
made, in order, and whether all went well. -/
structure Made where
  /-- The file system afterwards. -/
  disk : FileSystem
  /-- The directories made. -/
  made : List Location
  /-- How the call ended. -/
  outcome : Except Errno Unit

/-- Makes the directories that are missing along the names from `here`; `links` more links may
be followed on the whole way. -/
def makeFrom (fs : FileSystem) (links : Nat) (here : Location) : List String → Made
  | [] => ⟨fs, [], .ok ()⟩
  | name :: rest =>
    let fail := fun errno ↦ (⟨fs, [], .error errno⟩ : Made)
    match fs.node? here with
    | some (.directory false) =>
      if name = "." then makeFrom fs links here rest
      else if name = ".." then makeFrom fs links here.dropLast rest
      else if nameIsTooLong name then fail .nameTooLong
      else
        let next := here ++ [name]
        match fs.node? next with
        | none =>
          let more := makeFrom (fs.set next (.directory false)) links next rest
          { more with made := next :: more.made }
        | some _ =>
          match walkOn fs .followLink links here [name] with
          | .error errno => fail errno
          | .ok (arrived, links) =>
            if fs.isDirectoryAt arrived then makeFrom fs links arrived rest
            else fail (if rest.isEmpty then .occupied else .notDirectory)
    | some (.directory true) => fail .denied
    | _ => fail .notDirectory

/-- Makes a directory and all directories missing on the way to it. -/
def makeDirectory (fs : FileSystem) (cwd path : String) : Made :=
  if path = "" then ⟨fs, [], .error .missing⟩
  else if pathIsTooLong path then ⟨fs, [], .error .nameTooLong⟩
  else makeFrom fs maxLinks (startOf cwd path) (walkNames path)

end ResourceLocator.FileSystem
