import ResourceLocator.FileSystem.Basic

/-!
# Edits from outside

An edit changes a file system without asking for permission: it looks through no link and
minds no lock. Its parts are applied in the order of the fields.
-/

namespace ResourceLocator

/-- A change to a file system from outside. -/
structure Edit where
  /-- What is taken away, with all below it. -/
  remove : List Location := []
  /-- Directories that are made where nothing stands. -/
  directories : List Location := []
  /-- Files that are put in place. -/
  files : List (Location × String) := []
  /-- Links that are put in place. -/
  links : List (Location × String) := []
  /-- What is locked. -/
  lock : List Location := []
  /-- What is unlocked. -/
  unlock : List Location := []

namespace FileSystem

/-- Puts a node at a location whose directories are made where they are missing. -/
def put (fs : FileSystem) (loc : Location) (node : Node) : FileSystem :=
  (fs.makeDirectories loc.dropLast).set loc node

/-- Sets or takes away the lock of a directory or a file. -/
def setLock (fs : FileSystem) (locked : Bool) (loc : Location) : FileSystem :=
  match fs.node? loc with
  | some (.directory _) => fs.set loc (.directory locked)
  | some (.file text _) => fs.set loc (.file text locked)
  | _ => fs

/-- The file system after an edit. -/
def edit (fs : FileSystem) (e : Edit) : FileSystem :=
  let fs := e.remove.foldl (fun fs loc ↦ (fs.makeDirectories loc.dropLast).remove loc) fs
  let fs := e.directories.foldl makeDirectories fs
  let fs := e.files.foldl (fun fs (loc, text) ↦ fs.put loc (.file text false)) fs
  let fs := e.links.foldl (fun fs (loc, target) ↦ fs.put loc (.link target)) fs
  let fs := e.lock.foldl (setLock · true) fs
  e.unlock.foldl (setLock · false) fs

end FileSystem

end ResourceLocator
