import ResourceLocator.Config.Basic
import ResourceLocator.Failure
import ResourceLocator.FileSystem.Read
import ResourceLocator.Yaml.Document

/-!
# Configuration files

A configuration file is a YAML mapping of known keys. A file that is not there counts as an
empty mapping, and so does an empty one.

`ConfigFile.ofFields` takes the fields of an accepted mapping apart.
-/

namespace ResourceLocator

namespace ConfigFile

/-! ### The schema -/

/-- The levels of the console log. -/
def logLevelSchema : Schema := Schema.oneOf (Level.all.map Level.name)

/-- The fields of the section on the debug log. -/
def debugFields : List Schema.Field :=
  [⟨"enabled", Schema.bool, true⟩,
   ⟨"log_file", Schema.nonempty, true⟩]

/-- The section on the debug log. -/
def debugSchema : Schema := Schema.record debugFields

/-- The fields of the section on the trace tool. -/
def traceToolFields : List Schema.Field :=
  [⟨"env_var", Schema.form EnvName.isWellFormed
      "must be an UPPER_SNAKE environment variable name", false⟩,
   ⟨"companion", Schema.nonempty, false⟩]

/-- The section on the trace tool. -/
def traceToolSchema : Schema := Schema.record traceToolFields

/-- A list of directories. -/
def dirsSchema : Schema := Schema.listOf Schema.nonempty

/-- The fields of a file. -/
def knownFields : List Schema.Field :=
  [⟨"package", Schema.nonempty, true⟩,
   ⟨"api_version", Schema.nonempty, true⟩,
   ⟨"env_prefix", Schema.form EnvName.isWellFormed
      "must be an UPPER_SNAKE environment variable prefix", true⟩,
   ⟨"resource_offset", Schema.nonempty, true⟩,
   ⟨"includes", dirsSchema, true⟩,
   ⟨"system_dirs", dirsSchema, true⟩,
   ⟨"development_dirs", dirsSchema, true⟩,
   ⟨"trace_tool", traceToolSchema, true⟩,
   ⟨"log_level", logLevelSchema, true⟩,
   ⟨"debug", debugSchema, true⟩,
   ⟨"verbose", Schema.bool, true⟩]

/-- The whole file. -/
def schema : Schema := Schema.record knownFields

/-- The data of fields that the schema accepts. The first issue is the fault of the source that
the fields come from; values that cannot be measured are a failure of their own. -/
def validate (fields : Fields) (source : String) : Except Failure Fields :=
  match schema (.record fields) with
  | .error cause => .error (.inconvertible cause)
  | .ok verdict => match verdict.issues with
    | issue :: _ => .error (.config (.invalid issue) (some source))
    | [] => .ok ((verdict.data.fields?).getD [])

/-! ### Reading -/

/-- The document that a file holds. A file that cannot be read and a text that is no document
are the same kind of fault. -/
def readDocument (disk : FileSystem) (cwd path : String) : Except Failure Value :=
  let unreadable := fun reason ↦ Failure.config (.unreadable reason) (some path)
  match disk.readText cwd path with
  | .error fault => .error (unreadable fault.message)
  | .ok text => match Yaml.read text with
    | .error fault => .error (unreadable fault.message)
    | .ok document => .ok document

/-- The fields of a configuration file. -/
def read (disk : FileSystem) (cwd path : String) : Except Failure Fields := do
  if path.toList.contains '\x00' || !disk.exists? cwd path then return []
  match ← readDocument disk cwd path with
  | .null => return []
  | document => match document.fields? with
    | some fields => return fields
    | none => throw (.config .notMapping (some path))

end ConfigFile

/-! ### Accepted files -/

/-- The section on the debug log, taken apart. -/
structure DebugSection where
  /-- Whether entries are kept. -/
  enabled : Option Bool
  /-- The file that they are kept in. -/
  logFile : Option String
  deriving DecidableEq, Repr

/-- An accepted configuration file, taken apart. -/
structure ConfigFile where
  /-- The package of the tool. -/
  package : Option String
  /-- The version of its interface. -/
  apiVersion : Option String
  /-- What the names of its variables start with. -/
  envPrefix : Option String
  /-- The way from the directory of the executable to the resources. -/
  resourceOffset : Option String
  /-- Directories of the user layer. -/
  includes : Option (List String)
  /-- Directories of the system layer. -/
  systemDirs : Option (List String)
  /-- Where the resources are while the tool is not installed. -/
  developmentDirs : Option (List String)
  /-- The companion tool. -/
  traceTool : Option TraceTool
  /-- The threshold of the console log. -/
  logLevel : Option Level
  /-- The section on the debug log. -/
  debug : Option DebugSection
  /-- Whether everything is logged and shown. -/
  verbose : Option Bool
  deriving DecidableEq, Repr

namespace ConfigFile

/-- A text. -/
def asText : Value → Option String
  | .text s => some s
  | _ => none

/-- A truth value. -/
def asBool : Value → Option Bool
  | .bool b => some b
  | _ => none

/-- A list of texts. -/
def asTexts : Value → Option (List String)
  | .list items => some (items.filterMap asText)
  | _ => none

/-- The section on the trace tool. -/
def asTraceTool (v : Value) : Option TraceTool := do
  let fields ← v.fields?
  return ⟨← (Fields.get? fields "env_var").bind asText,
    ← (Fields.get? fields "companion").bind asText⟩

/-- The section on the debug log. -/
def asDebug (v : Value) : Option DebugSection :=
  v.fields?.map fun fields ↦
    ⟨(Fields.get? fields "enabled").bind asBool, (Fields.get? fields "log_file").bind asText⟩

/-- The fields of an accepted file, taken apart. -/
def ofFields (fields : Fields) : ConfigFile where
  package := (Fields.get? fields "package").bind asText
  apiVersion := (Fields.get? fields "api_version").bind asText
  envPrefix := (Fields.get? fields "env_prefix").bind asText
  resourceOffset := (Fields.get? fields "resource_offset").bind asText
  includes := (Fields.get? fields "includes").bind asTexts
  systemDirs := (Fields.get? fields "system_dirs").bind asTexts
  developmentDirs := (Fields.get? fields "development_dirs").bind asTexts
  traceTool := (Fields.get? fields "trace_tool").bind asTraceTool
  logLevel := ((Fields.get? fields "log_level").bind asText).bind Level.ofName?
  debug := (Fields.get? fields "debug").bind asDebug
  verbose := (Fields.get? fields "verbose").bind asBool

end ConfigFile

end ResourceLocator
