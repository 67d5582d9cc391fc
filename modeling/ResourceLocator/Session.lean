import ResourceLocator.FileSystem.Write
import ResourceLocator.Log.Level
import ResourceLocator.Log.Timestamp
import ResourceLocator.Probe

/-!
# Sessions

A session is a run of the program in a world: a file system, a clock, an environment, the
replies that child processes will give, and the two logs. What the session does to its
surroundings is noted in its `Effects`. A session ends with an answer or a failure, and in both
cases leaves a world behind.
-/

namespace ResourceLocator

/-- The environment variables that are set. -/
abbrev Environment := String → Option String

namespace Environment

/-- The value of a variable that is set and not empty. -/
def nonempty? (env : Environment) (name : String) : Option String :=
  (env name).filter (· ≠ "")

/-- The environment of a list of variables; the first entry of a name counts. -/
def ofList (entries : List (String × String)) : Environment := fun name ↦
  (entries.find? (·.1 == name)).map (·.2)

end Environment

/-- A start of a child process. -/
structure ChildRun where
  /-- The program. -/
  command : String
  /-- Its arguments. -/
  args : List String
  /-- The directory that it runs in. -/
  directory : String
  deriving DecidableEq, Repr

/-- What comes of a child process. -/
inductive Reply where
  /-- It ends well and has written a text. -/
  | output (text : String)
  /-- It fails. -/
  | failure (value : Value)

/-- The debug log. -/
structure Journal where
  /-- The file that entries go to. -/
  file : Option String := none
  /-- Whether entries are shown on the console too. -/
  isVerbose : Bool := false
  /-- Whether the choice of a file has been made. -/
  isConfigured : Bool := false
  deriving DecidableEq, Repr

/-- What a session has done to its surroundings. -/
structure Effects where
  /-- What has been written to the standard output. -/
  output : String := ""
  /-- What has been written to the standard error. -/
  errors : String := ""
  /-- The child processes started. -/
  runs : List ChildRun := []
  /-- The directories made. -/
  made : List Location := []
  /-- The files written. -/
  written : List Location := []
  deriving DecidableEq, Repr

/-- The world of a session. -/
structure World where
  /-- The file system. -/
  disk : FileSystem
  /-- The working directory of the process. -/
  cwd : String
  /-- The home directory. -/
  home : String
  /-- The instant that the clock shows. -/
  now : Instant
  /-- The environment of the process. -/
  env : Environment
  /-- The arguments of the process, its program and entry script first. -/
  argv : List String
  /-- What will come of the child processes, in order. -/
  replies : List Reply
  /-- Whether the console shows colours. -/
  hasColours : Bool
  /-- The threshold of the console log. -/
  threshold : Level := .info
  /-- The debug log. -/
  journal : Journal := {}
  /-- What has been done. -/
  effects : Effects := {}

/-- A run of the program, or a part of it. -/
abbrev Session := ExceptT Failure (StateM World)

namespace Session

/-- Runs a session in a world; the world that it leaves behind comes with its outcome. -/
def runIn {α : Type} (session : Session α) (world : World) : Except Failure α × World :=
  (ExceptT.run session).run world

/-- Writes to the standard output. -/
def print (text : String) : Session Unit :=
  modify fun w ↦ { w with effects.output := w.effects.output ++ text }

/-- Writes to the standard error. -/
def printError (text : String) : Session Unit :=
  modify fun w ↦ { w with effects.errors := w.effects.errors ++ text }

/-- Fails if a computation without effects does. -/
def ofExcept {α : Type} : Except Failure α → Session α
  | .ok a => pure a
  | .error failure => throw failure

/-- The message of a failure. -/
def messageOf (failure : Failure) : Session String :=
  ofExcept failure.message

/-- Makes a directory and those missing on the way to it. -/
def makeDirectory (path : String) : Session Unit := do
  ofExcept (guardPath path)
  let w ← get
  let result := w.disk.makeDirectory w.cwd path
  set { w with disk := result.disk, effects.made := w.effects.made ++ result.made }
  match result.outcome with
  | .ok () => return ()
  | .error errno => throw (.call ⟨errno, "mkdir", some path⟩)

/-- Changes a file by a call that writes. -/
def changeFile (call : FileSystem → String → Except CallFault (FileSystem × Location))
    (path : String) : Session Unit := do
  ofExcept (guardPath path)
  let w ← get
  match call w.disk w.cwd with
  | .ok (disk, loc) => set { w with disk, effects.written := w.effects.written ++ [loc] }
  | .error fault => throw (.call fault)

/-- Puts a text in place of what a file holds. -/
def writeFile (path text : String) : Session Unit :=
  changeFile (fun fs cwd ↦ fs.write cwd path text) path

/-- Puts a text after what a file holds. -/
def appendFile (path text : String) : Session Unit :=
  changeFile (fun fs cwd ↦ fs.append cwd path text) path

/-- Starts a child process and waits for what it writes. A program for which no reply is left
cannot be started. -/
def execute (run : ChildRun) : Session String := do
  let w ← get
  match w.replies with
  | [] =>
    set { w with effects.runs := w.effects.runs ++ [run] }
    throw (.noProgram run.command)
  | reply :: replies =>
    set { w with replies, effects.runs := w.effects.runs ++ [run] }
    match reply with
    | .output text => return text
    | .failure value => throw (.outside value)

/-- The probe of the file system of a session, as it is when a question is asked. -/
def probe : Probe Session where
  realpath path := do let w ← get; ofExcept ((w.disk.probe w.cwd).realpath path)
  isDirectory path := do let w ← get; ofExcept ((w.disk.probe w.cwd).isDirectory path)
  isFile path := do let w ← get; ofExcept ((w.disk.probe w.cwd).isFile path)
  readText path := do let w ← get; ofExcept ((w.disk.probe w.cwd).readText path)
  entries path := do let w ← get; ofExcept ((w.disk.probe w.cwd).entries path)

end Session

end ResourceLocator
