import ResourceLocator.FileSystem.Basic
import ResourceLocator.FileSystem.Fault

/-!
# Walks

A walk takes the names of a path one after the other, from the root or from the working
directory, and looks each of them up in the directory that it has reached. Links are followed
on the way, at most 40 of them; what happens at the last name is the caller's choice.

Unlike `Location.descend`, a walk takes `..` from where it has really arrived.
-/

namespace ResourceLocator.FileSystem

/-- What a walk does at its last name. -/
inductive LastName where
  /-- A link there is where the walk ends. -/
  | keepLink
  /-- A link there is followed. -/
  | followLink
  /-- A link there is followed, and nothing needs to be there. -/
  | mayBeNew
  deriving DecidableEq, Repr

/-- How many links a walk follows. -/
def maxLinks : Nat := 40

/-- Whether a name is too long for any directory. -/
def nameIsTooLong (name : String) : Bool := 255 < name.utf8ByteSize

/-- The names of a path that a walk takes. -/
def walkNames (path : String) : List String :=
  (Path.names path).filter (· ≠ "")

/-- Walks from `here` along the names; `links` more links may be followed. Gives the location
reached, and how many links may still be followed from there. -/
def walkOn (fs : FileSystem) (last : LastName) (links : Nat) (here : Location) :
    List String → Except Errno (Location × Nat)
  | [] => .ok (here, links)
  | name :: rest =>
    match fs.node? here with
    | some (.directory locked) =>
      if locked then .error .denied
      else if name = "." then walkOn fs last links here rest
      else if name = ".." then walkOn fs last links here.dropLast rest
      else if nameIsTooLong name then .error .nameTooLong
      else
        let next := here ++ [name]
        match fs.node? next with
        | none => if rest = [] ∧ last = .mayBeNew then .ok (next, links) else .error .missing
        | some (.link target) =>
          if rest = [] ∧ last = .keepLink then .ok (next, links)
          else match links with
            | 0 => .error .tooManyLinks
            | links + 1 =>
              walkOn fs last links (if Path.isAbsolute target then [] else here)
                (walkNames target ++ rest)
        | some _ => walkOn fs last links next rest
    | _ => .error .notDirectory
termination_by names => (links, names.length)

/-- The location that a walk from `here` along the names reaches. -/
def walkFrom (fs : FileSystem) (last : LastName) (here : Location) (names : List String) :
    Except Errno Location :=
  (walkOn fs last maxLinks here names).map (·.1)

/-- Where a walk from the working directory starts. -/
def startOf (cwd path : String) : Location :=
  if Path.isAbsolute path then [] else Location.descend [] cwd

/-- Whether a path is too long for any walk. -/
def pathIsTooLong (path : String) : Bool := 4096 ≤ path.utf8ByteSize

/-- Whether a directory stands at a location. -/
def isDirectoryAt (fs : FileSystem) (loc : Location) : Bool :=
  match fs.node? loc with
  | some (.directory _) => true
  | _ => false

/-- The location that a path leads to. A path that ends in a slash leads to a directory, and
through a link at its end. -/
def walk (fs : FileSystem) (cwd : String) (last : LastName) (path : String) :
    Except Errno Location :=
  if path = "" then .error .missing
  else if pathIsTooLong path then .error .nameTooLong
  else do
    let slash := Path.endsInSlash path
    let last := if slash then .followLink else last
    let loc ← walkFrom fs last (startOf cwd path) (walkNames path)
    if slash && !fs.isDirectoryAt loc then .error .notDirectory else return loc

end ResourceLocator.FileSystem
