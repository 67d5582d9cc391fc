import ResourceLocator.FileSystem.Fault
import ResourceLocator.Value.Schema
import ResourceLocator.Value.Text

/-!
# Failures

Everything that can go wrong is a `Failure`: a cause with what is particular to it. The words
of a cause are given by `Failure.message`, its standing to callers by `Failure.exitCode` and
`Failure.code?`.

A child process or a capability of the host may fail with any value; such a failure is
`outside`. Most values have a text, and the message of the failure is that text; a value
without a text makes the request for the message fail itself.
-/

namespace ResourceLocator

/-- Why the executable could not be located. -/
inductive StartupFault where
  /-- The process was started without an entry script. -/
  | noEntryScript
  /-- The path given for the executable is relative. -/
  | relativeOverride (path : String)
  /-- The path found for the executable is relative. -/
  | relativePath (path : String)
  /-- The path of the executable has no canonical form. -/
  | notCanonical (path reason : String)
  /-- No way of finding the resources applied. -/
  | noStrategy
  deriving DecidableEq, Repr

/-- A startup fault in words. -/
def StartupFault.message : StartupFault → String
  | .noEntryScript =>
    "Cannot determine the path of the running executable: the process has no entry script"
  | .relativeOverride path => "Executable path must be absolute: " ++ path
  | .relativePath path => "Executable path is not absolute: " ++ path
  | .notCanonical path reason =>
    "Cannot canonicalize executable path " ++ path ++ ": " ++ reason
  | .noStrategy => "No resource root strategy applied"

/-- What is wrong with a configuration. -/
inductive ConfigFault where
  /-- A file could not be read or parsed. -/
  | unreadable (reason : String)
  /-- A file holds something other than a mapping. -/
  | notMapping
  /-- The schema takes issue with a value. -/
  | invalid (issue : Issue)
  /-- A required key is nowhere set. -/
  | missingKey (key envName : String)
  /-- An override is no truth value. -/
  | notBoolean (envName : String)
  /-- An override is no JSON text. -/
  | notJson (envName : String)
  deriving DecidableEq, Repr

/-- A configuration fault in words, without its source. -/
def ConfigFault.message : ConfigFault → String
  | .unreadable reason => "Failed to parse config: " ++ reason
  | .notMapping => "Config must be a YAML mapping"
  | .invalid issue =>
    let key := String.intercalate "." (issue.path.map PathStep.toText)
    if key = "" then issue.fault.message
    else "Invalid config key '" ++ key ++ "': " ++ issue.fault.message
  | .missingKey key envName =>
    "Missing required config key '" ++ key ++ "' (set it in a config file or " ++ envName ++ ")"
  | .notBoolean envName => envName ++ " must be one of: true, false"
  | .notJson envName => envName ++ " must be valid JSON"

/-- A cause of failure. -/
inductive Failure where
  /-- The executable could not be located. -/
  | startup (fault : StartupFault)
  /-- A configuration is at fault. -/
  | config (fault : ConfigFault) (source : Option String)
  /-- A call on the file system failed. -/
  | call (fault : CallFault)
  /-- A path has a NUL character. -/
  | nulPath (path : String)
  /-- A resource name does not stay inside its directory. -/
  | resourceName (name : String)
  /-- A program could not be started. -/
  | noProgram (command : String)
  /-- The command context was asked for before any command ran. -/
  | noContext
  /-- A value that should be a text or a number is none. -/
  | inconvertible (cause : Value.Inconvertible)
  /-- A value thrown from outside. -/
  | outside (value : Value)

/-- The wording of a configuration error: the message and, in parentheses, its source. An
empty source is not shown. -/
def withSource (message : String) (source : Option String) : String :=
  match source with
  | some "" => message
  | some source => message ++ " (" ++ source ++ ")"
  | none => message

/-- The exit codes of the program. -/
inductive ExitCode where
  /-- All went well. -/
  | success
  /-- An error of no particular kind. -/
  | general
  /-- The executable could not be located. -/
  | startup
  /-- The configuration is invalid. -/
  | config
  /-- No directory has the resource. -/
  | notFound
  deriving DecidableEq, Repr

/-- The number of an exit code. -/
def ExitCode.toInt : ExitCode → Int
  | .success => 0
  | .general => 1
  | .startup => 2
  | .config => 3
  | .notFound => 4

namespace Value

/-- The message of a thrown value: that of an error, the text of anything else. -/
def thrownMessage : Value → Except Inconvertible String
  | .error _ message _ => .ok message
  | v => v.toText

/-- The code of a thrown value: its field `code`, if that is a text. -/
def thrownCode? (v : Value) : Option String :=
  match v.fields?.bind (Fields.get? · "code") with
  | some (.text code) => some code
  | _ => none

/-- The exit status of a thrown value: its field `status`, if that is a number. -/
def thrownStatus? (v : Value) : Option Number :=
  match v.fields?.bind (Fields.get? · "status") with
  | some (.number n) => some n
  | _ => none

/-- The exit code for a thrown value. -/
def thrownExit : Value → Int
  | .error (.usage status) _ _ => status
  | .error .startup _ _ => ExitCode.startup.toInt
  | .error (.config _) _ _ => ExitCode.config.toInt
  | _ => ExitCode.general.toInt

end Value

namespace Failure

/-- The message of a failure. -/
def message : Failure → Except Failure String
  | .startup fault => .ok fault.message
  | .config fault source => .ok (withSource fault.message source)
  | .call fault => .ok fault.message
  | .nulPath path => .ok (NulPath.message path)
  | .resourceName name => .ok ("Invalid resource name: " ++ name)
  | .noProgram command => .ok ("spawnSync " ++ command ++ " ENOENT")
  | .noContext => .ok "CLI context requested before initialization"
  | .inconvertible .symbolAsText => .ok "Cannot convert a Symbol value to a string"
  | .inconvertible .symbolAsNumber => .ok "Cannot convert a Symbol value to a number"
  | .inconvertible .notPrimitive => .ok "Cannot convert object to primitive value"
  | .outside v => match v.thrownMessage with
    | .ok text => .ok text
    | .error cause => .error (.inconvertible cause)

/-- The code of a failure, if it has one. -/
def code? : Failure → Option String
  | .call fault => some fault.errno.code
  | .nulPath _ => some "ERR_INVALID_ARG_VALUE"
  | .noProgram _ => some Errno.missing.code
  | .outside v => v.thrownCode?
  | _ => none

/-- The exit status of the child process behind a failure, if it has one. -/
def status? : Failure → Option Number
  | .outside v => v.thrownStatus?
  | _ => none

/-- The exit code for a failure that no command has dealt with. -/
def exitCode : Failure → Int
  | .startup _ => ExitCode.startup.toInt
  | .config _ _ => ExitCode.config.toInt
  | .outside v => v.thrownExit
  | _ => ExitCode.general.toInt

end Failure

end ResourceLocator
