import ResourceLocator.Number.Decimal
import ResourceLocator.Value.Text

/-!
# Schemas

A schema says which values it accepts. Its answer to a value is a *verdict*: the issues it
takes with the value, in a fixed order, and the data it makes of it. A value is accepted when
there are no issues. A value that cannot be measured has no verdict.

Schemas are built from those of texts, truth values and options by `listOf` and `record`. The
fields of a record are judged in the order of the schema, and the keys that the schema does
not know are one issue after all others.
-/

namespace ResourceLocator

/-- A step on the way to a place inside a value. -/
inductive PathStep where
  /-- Into the field of a key. -/
  | key (name : String)
  /-- Into an item of a list. -/
  | index (i : Nat)
  deriving DecidableEq, Repr

/-- What a value that is too small should be. -/
inductive Sized where
  /-- A text, counted in characters. -/
  | text
  /-- A list, counted in items. -/
  | list
  /-- Something else that has a length. -/
  | unknown
  deriving DecidableEq, Repr

/-- What is wrong with a value. -/
inductive Fault where
  /-- It is of another type than `expected`. -/
  | wrongType (expected received : String)
  /-- It is empty. -/
  | empty (sized : Sized)
  /-- Its text has not the form that `message` asks for. -/
  | wrongForm (message : String)
  /-- It is none of the options. -/
  | notAnOption (options : List String)
  /-- It has keys that nobody knows. -/
  | unknownKeys (keys : List String)
  deriving DecidableEq, Repr

/-- A fault and the place where it is. -/
structure Issue where
  /-- The way from the whole value to the place. -/
  path : List PathStep
  /-- What is wrong there. -/
  fault : Fault
  deriving DecidableEq, Repr

/-- The step as a part of a dotted path. -/
def PathStep.toText : PathStep → String
  | .key name => name
  | .index i => toString i

/-- The names of the kinds of faults. -/
def Fault.code : Fault → String
  | .wrongType _ _ => "invalid_type"
  | .empty _ => "too_small"
  | .wrongForm _ => "invalid_format"
  | .notAnOption _ => "invalid_value"
  | .unknownKeys _ => "unrecognized_keys"

/-- A text between double quotes, as it is. -/
def inQuotes (s : String) : String := "\"" ++ s ++ "\""

/-- A fault in words. -/
def Fault.message : Fault → String
  | .wrongType expected received =>
    "Invalid input: expected " ++ expected ++ ", received " ++ received
  | .empty .text => "Too small: expected string to have >=1 characters"
  | .empty .list => "Too small: expected array to have >=1 items"
  | .empty .unknown => "Too small: expected unknown to be >=1"
  | .wrongForm message => message
  | .notAnOption options =>
    "Invalid option: expected one of " ++ String.intercalate "|" (options.map inQuotes)
  | .unknownKeys [key] => "Unrecognized key: " ++ inQuotes key
  | .unknownKeys keys => "Unrecognized keys: " ++ String.intercalate ", " (keys.map inQuotes)

/-- The name of the type of a value, as issues give it. -/
def Value.typeName : Value → String
  | .undefined => "undefined"
  | .null => "null"
  | .bool _ => "boolean"
  | .number .nan => "NaN"
  | .number (.infinite negative) => if negative then "-Infinity" else "Infinity"
  | .number (.finite _ _ _) => "number"
  | .integer _ => "bigint"
  | .symbol _ => "symbol"
  | .text _ => "string"
  | .list _ => "array"
  | .record _ => "object"
  | .error kind _ _ => kind.name
  | .cycle => "object"
  | .bytes _ => "Buffer"
  | .instant _ => "Date"
  | .set _ => "Set"
  | .table _ => "Map"

/-- What a schema says of a value. -/
structure Verdict where
  /-- The issues, in the order in which they are reported. -/
  issues : List Issue
  /-- The data made of the value. -/
  data : Value

/-- A schema, as the verdict on each value. -/
abbrev Schema := Value → Except Value.Inconvertible Verdict

namespace Schema

/-- A verdict of one fault in the value itself. -/
def reject (v : Value) (fault : Fault) : Verdict := ⟨[⟨[], fault⟩], v⟩

/-- The verdict without issues. -/
def accept (v : Value) : Verdict := ⟨[], v⟩

/-- Whether a length counts as at least one. -/
def atLeastOne : Value → Except Value.Inconvertible Bool
  | .null => .ok false
  | .bool b => .ok b
  | .number n => .ok n.isAtLeastOne
  | .integer i => .ok (1 ≤ i)
  | .instant t => .ok (1 ≤ t)
  | .symbol _ => .error .symbolAsNumber
  | v => v.toText.map fun s ↦ (Number.ofText s).isAtLeastOne

/-- The emptiness that a value without characters, items or length is at fault with. Values of
other types than text are measured too, after their type has been found wrong. -/
def emptiness? : Value → Except Value.Inconvertible (Option Sized)
  | .text s => .ok (if s = "" then some .text else none)
  | .list items => .ok (if items.isEmpty then some .list else none)
  | .bytes bs => .ok (if bs.isEmpty then some .unknown else none)
  | v => match v.fields?.bind (Fields.get? · "length") with
    | none => .ok none
    | some .undefined => .ok none
    | some length => (atLeastOne length).map fun ok ↦ if ok then none else some .unknown

/-- The verdict on a value that should be a text. -/
def judgeText : Value → Verdict
  | .text s => accept (.text s)
  | v => reject v (.wrongType "string" v.typeName)

/-- Any text but the empty one. -/
def nonempty : Schema := fun v ↦
  (emptiness? v).map fun measured ↦
    ⟨(judgeText v).issues ++ measured.toList.map fun sized ↦ ⟨[], .empty sized⟩, v⟩

/-- A text of a form; `message` says which. -/
def form (ok : String → Bool) (message : String) : Schema
  | .text s => .ok (if ok s then accept (.text s) else reject (.text s) (.wrongForm message))
  | v => .ok (judgeText v)

/-- A truth value. -/
def bool : Schema
  | .bool b => .ok (accept (.bool b))
  | v => .ok (reject v (.wrongType "boolean" v.typeName))

/-- One of the options. -/
def oneOf (options : List String) : Schema
  | .text s => .ok (if options.contains s then accept (.text s)
    else reject (.text s) (.notAnOption options))
  | v => .ok (reject v (.notAnOption options))

/-- The verdict on a part, as a part of the verdict on the whole. -/
def under (step : PathStep) (issues : List Issue) : List Issue :=
  issues.map fun issue ↦ { issue with path := step :: issue.path }

/-- A list of values of one schema. -/
def listOf (item : Schema) : Schema
  | .list items => do
    let verdicts ← items.mapM item
    return ⟨(verdicts.zipIdx.map fun (v, i) ↦ under (.index i) v.issues).flatten,
      .list (verdicts.map (·.data))⟩
  | v => .ok (reject v (.wrongType "array" v.typeName))

/-- A field of a record. -/
structure Field where
  /-- Its key. -/
  key : String
  /-- The schema of its value. -/
  schema : Schema
  /-- Whether the field may be left out. -/
  isOptional : Bool := true

/-- The verdict on one field of a record. -/
def Field.judge (field : Field) (fields : Fields) : Except Value.Inconvertible Verdict :=
  let v := (Fields.get? fields field.key).getD .undefined
  match field.isOptional, v with
  | true, .undefined => .ok (accept .undefined)
  | _, v => field.schema v

/-- A record of the known fields and no others. -/
def record (known : List Field) : Schema := fun v ↦
  match v.fields? with
  | none => .ok (reject v (.wrongType "object" v.typeName))
  | some fields => do
    let verdicts ← known.mapM fun field ↦ return (field.key, ← field.judge fields)
    let unknown := (Fields.keys fields).filter fun key ↦ !(known.map (·.key)).contains key
    let unknownIssues := if unknown.isEmpty then [] else [⟨[], .unknownKeys unknown⟩]
    return ⟨(verdicts.map fun (key, verdict) ↦ under (.key key) verdict.issues).flatten
        ++ unknownIssues,
      .record (verdicts.filterMap fun (key, verdict) ↦
        if (Fields.get? fields key).isSome then some (key, verdict.data) else none)⟩

end Schema

end ResourceLocator
