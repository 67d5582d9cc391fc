import ResourceLocator.Failure
import ResourceLocator.FileSystem.Read

/-!
# Probes

A probe answers the questions that locating resources asks of a file system. A path that leads
nowhere is an answer, not a failure: it is no directory and no file, has no text and no
entries. Every other failed call is a failure.

`FileSystem.probe` asks a file system. All of its questions but `realpath` fail on the same
paths as the walk does.
-/

namespace ResourceLocator

/-- The questions to a file system, answered in `m`. -/
structure Probe (m : Type → Type) where
  /-- The absolute path without links of what a path leads to. -/
  realpath : String → m String
  /-- Whether a path leads to a directory. -/
  isDirectory : String → m Bool
  /-- Whether a path leads to a file. -/
  isFile : String → m Bool
  /-- The text of a file, if there is one. -/
  readText : String → m (Option String)
  /-- The names in a directory, none if there is no directory. -/
  entries : String → m (List String)

/-- The probe that answers in another way. -/
def Probe.map {m n : Type → Type} (f : {α : Type} → m α → n α) (probe : Probe m) : Probe n where
  realpath path := f (probe.realpath path)
  isDirectory path := f (probe.isDirectory path)
  isFile path := f (probe.isFile path)
  readText path := f (probe.readText path)
  entries path := f (probe.entries path)

/-- Refuses a path with a NUL character. -/
def guardPath (path : String) : Except Failure Unit :=
  if path.toList.contains '\x00' then .error (.nulPath path) else .ok ()

/-- The answer of a call, `none` if nothing is there. -/
def present? {α : Type} : Except CallFault α → Except Failure (Option α)
  | .ok a => .ok (some a)
  | .error fault => if fault.errno.isAbsence then .ok none else .error (.call fault)

namespace FileSystem

/-- What a path leads to, if anything. -/
def stat? (fs : FileSystem) (cwd path : String) : Except Failure (Option Node) := do
  guardPath path
  present? (fs.stat cwd path)

/-- The probe of a file system. -/
def probe (fs : FileSystem) (cwd : String) : Probe (Except Failure) where
  realpath path := do
    guardPath path
    (fs.realpath cwd path).mapError .call
  isDirectory path := do
    match ← fs.stat? cwd path with
    | some (.directory _) => return true
    | _ => return false
  isFile path := do
    match ← fs.stat? cwd path with
    | some (.file _ _) => return true
    | _ => return false
  readText path := do
    guardPath path
    present? (fs.readText cwd path)
  entries path := do
    guardPath path
    return (← present? (fs.list cwd path)).getD []

end FileSystem

end ResourceLocator
