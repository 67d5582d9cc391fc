import ResourceLocator.Log.Note
import ResourceLocator.Session

/-!
# The debug log

Entries are kept in a file, each on a line of its own after the time at which it was made, and
may be shown on the console as well.

The first call of `Journal.configure` decides whether and where entries are kept; later calls
change nothing. The first entry that cannot be kept ends the keeping. Showing entries on the
console is independent of both.
-/

namespace ResourceLocator

/-- The name of the directory that holds the configuration and the logs. -/
def configDirectoryName : String := ".reloc"

/-- How entries are to be kept. -/
structure JournalConfig where
  /-- Whether they are kept. -/
  enabled : Bool
  /-- The file that they are kept in. -/
  logFile : Option String := none
  deriving DecidableEq, Repr

namespace Journal

/-- The file that entries are kept in unless another is given. -/
def defaultFile (projectDir : String) (now : Instant) : String :=
  Path.join [projectDir, configDirectoryName, "logs",
    "debug-" ++ String.ofList now.fileStamp ++ ".log"]

/-- The first line of the file. -/
def header (projectDir : String) (now : Instant) : String :=
  "# reloc debug log started " ++ String.ofList now.timestamp ++ " in " ++ projectDir ++ "\n"

/-- Decides whether and where entries are kept, and starts the file. -/
def configure (config : Option JournalConfig) (projectDir : String) : Session Unit := do
  let w ← get
  if w.journal.isConfigured then return ()
  set { w with journal.isConfigured := true }
  let some config := config | return ()
  unless config.enabled do return ()
  let file := config.logFile.getD (defaultFile projectDir w.now)
  Session.makeDirectory (Path.dirname file)
  Session.writeFile file (header projectDir w.now)
  modify fun w ↦ { w with journal.file := some file }

/-- Starts or ends showing entries on the console. -/
def setVerbose (isVerbose : Bool) : Session Unit :=
  modify fun w ↦ { w with journal.isVerbose := isVerbose }

/-- Forgets everything about the log. -/
def reset : Session Unit :=
  modify fun w ↦ { w with journal := {} }

/-- Puts a line into the file, and ends the keeping of entries if that fails. -/
def keep (file text : String) : Session Unit :=
  tryCatch (Session.appendFile file text) fun failure ↦ do
    let reason ← Session.messageOf failure
    Session.printError ("reloc: debug log disabled: " ++ reason ++ "\n")
    modify fun w ↦ { w with journal.file := none }

/-- Makes an entry. -/
def write (note : Note) : Session Unit := do
  let w ← get
  if w.journal.isVerbose then
    Session.printError (String.ofList w.now.clockTime ++ " " ++ note.line ++ "\n")
  match w.journal.file with
  | none => return ()
  | some file => keep file (String.ofList w.now.timestamp ++ " " ++ note.line ++ "\n")

end Journal

end ResourceLocator
