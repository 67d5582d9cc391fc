import ResourceLocator.Failure
import ResourceLocator.Session
import ResourceLocator.Text.Blank
import ResourceLocator.Tool.EnvName
import ResourceLocator.Value.Json

/-!
# Overrides from the environment

A variable can override each key of the configuration, and each key of its two sections. The
overrides are applied in the order of `Override.all`, a section before its keys. A key of a
section that is no mapping starts a new section. The first variable whose value is no good ends
the application; what was applied before stays.
-/

namespace ResourceLocator

/-- How the value of a variable is read. -/
inductive OverrideKind where
  /-- As it is. -/
  | text
  /-- As a truth value. -/
  | truth
  /-- As a JSON text. -/
  | json
  deriving DecidableEq, Repr

/-- A key that a variable can override. -/
structure Override where
  /-- The section that the key is in, if any. -/
  inSection : Option String
  /-- The key. -/
  key : String
  /-- How the value is read. -/
  kind : OverrideKind
  deriving DecidableEq, Repr

namespace Override

/-- The overrides, in the order in which they are applied. -/
def all : List Override :=
  [⟨none, "package", .text⟩,
   ⟨none, "api_version", .text⟩,
   ⟨none, "env_prefix", .text⟩,
   ⟨none, "resource_offset", .text⟩,
   ⟨none, "includes", .json⟩,
   ⟨none, "system_dirs", .json⟩,
   ⟨none, "development_dirs", .json⟩,
   ⟨none, "trace_tool", .json⟩,
   ⟨some "trace_tool", "env_var", .text⟩,
   ⟨some "trace_tool", "companion", .text⟩,
   ⟨none, "log_level", .text⟩,
   ⟨none, "debug", .json⟩,
   ⟨some "debug", "enabled", .truth⟩,
   ⟨some "debug", "log_file", .text⟩,
   ⟨none, "verbose", .truth⟩]

/-- The key with its section, as a dotted key. -/
def dottedKey (o : Override) : String :=
  match o.inSection with
  | none => o.key
  | some name => name ++ "." ++ o.key

/-- The variable of an override. -/
def variableName (o : Override) : String := EnvName.ofKey o.dottedKey

/-- A truth value in words: blanks around it and the case of ASCII letters do not count. The two
words have no letter that another character could stand for. -/
def readTruth? (raw : String) : Option Bool :=
  match String.ofList ((Text.trim raw.toList).map Char.toLower) with
  | "true" => some true
  | "false" => some false
  | _ => none

/-- The value of a variable. -/
def readValue (o : Override) (raw : String) : Except ConfigFault Value :=
  match o.kind with
  | .text => .ok (.text raw)
  | .truth => match readTruth? raw with
    | some b => .ok (.bool b)
    | none => .error (.notBoolean o.variableName)
  | .json => match Json.read? raw with
    | some v => .ok v
    | none => .error (.notJson o.variableName)

/-- Puts a value at the key of an override. -/
def put (o : Override) (fields : Fields) (v : Value) : Fields :=
  match o.inSection with
  | none => Fields.put fields o.key v
  | some name =>
    match Fields.get? fields name with
    | none => Fields.put fields name (.record [(o.key, v)])
    | some old => match old.fields? with
      | none => Fields.put fields name (.record [(o.key, v)])
      | some inner => Fields.put fields name (old.withFields (Fields.put inner o.key v))

/-- The outcome of overrides: the fields as far as they were changed, and what ended the
application. -/
structure Outcome where
  /-- The fields. -/
  fields : Fields
  /-- The fault that ended the application, if any. -/
  fault? : Option ConfigFault

/-- Applies overrides one after the other. -/
def applyFrom (env : Environment) : List Override → Fields → Outcome
  | [], fields => ⟨fields, none⟩
  | o :: rest, fields =>
    match env o.variableName with
    | none => applyFrom env rest fields
    | some raw => match o.readValue raw with
      | .error fault => ⟨fields, some fault⟩
      | .ok v => applyFrom env rest (o.put fields v)

/-- What faults of overrides give as their source. -/
def source : String := "environment"

/-- Applies all overrides. -/
def apply (env : Environment) (fields : Fields) : Outcome :=
  applyFrom env all fields

/-- The failure of an outcome, if any. -/
def Outcome.failure? (outcome : Outcome) : Option Failure :=
  outcome.fault?.map fun fault ↦ .config fault (some source)

end Override

end ResourceLocator
