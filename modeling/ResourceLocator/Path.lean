import ResourceLocator.Text.Pieces

/-!
# Paths

A path is a text; its names are the pieces between slashes. *Lexical* operations look at no
file: a name `..` takes back the name before it, whatever that names. The lexical meaning of
an absolute path is a *location*, the list of the names that lead to it from the root.

* `Location.descend` follows a path from a location, without a file system;
* `Path.resolve` gives the location that a sequence of paths leads to, as a path;
* `Path.join` and `Path.normalize` do the same to paths that may stay relative;
* `Path.contains` says whether one path lies lexically at or below another.
-/

namespace ResourceLocator

/-- The names that lead from the root to a place. -/
abbrev Location := List String

namespace Path

/-- The pieces of a path between its slashes. -/
def names (path : String) : List String :=
  Text.split (· == '/') path

/-- Whether a path starts at the root. -/
def isAbsolute (path : String) : Bool :=
  path.toList.head? == some '/'

/-- Whether a path ends in a slash. -/
def endsInSlash (path : String) : Bool :=
  path.toList.getLast? == some '/'

end Path

namespace Location

/-- One name down from a location: an empty name and `.` stay, `..` goes up, and up from the
root is the root. -/
def step (loc : Location) (name : String) : Location :=
  if name = "" || name = "." then loc
  else if name = ".." then loc.dropLast
  else loc ++ [name]

/-- Follows a path from a location; an absolute path starts at the root. -/
def descend (loc : Location) (path : String) : Location :=
  (Path.names path).foldl step (if Path.isAbsolute path then [] else loc)

/-- The absolute path of a location. -/
def toPath (loc : Location) : String :=
  "/" ++ String.intercalate "/" loc

end Location

namespace Path

/-- The location that the paths lead to, one after the other, from the working directory. -/
def locate (cwd : String) (paths : List String) : Location :=
  paths.foldl Location.descend (Location.descend [] cwd)

/-- The absolute path that the paths lead to, one after the other, from the working
directory. -/
def resolve (cwd : String) (paths : List String) : String :=
  (locate cwd paths).toPath

/-- One name down from a relative place: up from its start is kept. -/
def relativeStep (done : List String) (name : String) : List String :=
  if name = "" || name = "." then done
  else if name = ".." && done.getLast?.all (· == "..") then done ++ [".."]
  else if name = ".." then done.dropLast
  else done ++ [name]

/-- A path without empty names, `.` and, where a name stands before it, `..`. A slash at the
end is kept, and an empty relative path is `.`. -/
def normalize (path : String) : String :=
  let slash := if endsInSlash path then "/" else ""
  if isAbsolute path then
    let loc := (names path).foldl Location.step []
    if loc.isEmpty then "/" else loc.toPath ++ slash
  else
    let done := (names path).foldl relativeStep []
    if done.isEmpty then "." ++ slash else String.intercalate "/" done ++ slash

/-- The paths written one after the other and normalized; empty ones do not count. -/
def join (paths : List String) : String :=
  normalize (String.intercalate "/" (paths.filter (· ≠ "")))

/-- What stands before the last name of a path and the slash before it. Slashes at the end do
not count; without another slash the answer is `.`, or the root for an absolute path. -/
def dirname (path : String) : String :=
  match path.toList with
  | [] => "."
  | first :: rest =>
    let isSlash := fun c ↦ c == '/'
    -- The first character is the root or part of the last name, never a separator.
    match (rest.reverse.dropWhile isSlash).dropWhile (!isSlash ·) with
    | [] => if first == '/' then "/" else "."
    | _ :: before =>
      if first == '/' && before.isEmpty then "//"
      else String.ofList (first :: before.reverse)

/-- The last name of a path, slashes at its end left out. -/
def basename (path : String) : String :=
  let isSlash := fun c ↦ c == '/'
  String.ofList ((path.toList.reverse.dropWhile isSlash).takeWhile (!isSlash ·)).reverse

/-- The extension of the last name: from its last dot on. A dot at the start of the name
begins no extension, and `..` has none. -/
def extname (path : String) : String :=
  let name := (basename path).toList
  if name = ['.', '.'] then ""
  else
    let tail := name.reverse.takeWhile (· ≠ '.')
    if name.length ≤ tail.length + 1 then ""
    else String.ofList ('.' :: tail.reverse)

/-- Whether `target` is `base` or lies below it, both read from the working directory: its
absolute path is that of `base`, or goes on from it with a slash. -/
def contains (cwd : String) (base target : String) : Bool :=
  let base := resolve cwd [base]
  let target := resolve cwd [target]
  target == base ||
    (if endsInSlash base then base else base ++ "/").toList.isPrefixOf target.toList

end Path

end ResourceLocator
