import ResourceLocator.Failure
import ResourceLocator.Value.Json

/-!
# Descriptions of values

JSON has no word for some values. A description gives them as a record with the key `$`, whose
value names the kind; every other value stands for itself.
-/

namespace ResourceLocator.Description

/-- The text of a key. -/
def text? (fields : Fields) (key : String) : Option String :=
  match Fields.get? fields key with
  | some (.text s) => some s
  | _ => none

/-- The number of a key as an integer, or another one. -/
def intD (fields : Fields) (key : String) (otherwise : Int) : Int :=
  match Fields.get? fields key with
  | some (.number n) => n.toInt?.getD otherwise
  | _ => otherwise

/-- The class of a described error. -/
def errorClass (fields : Fields) : ErrorClass :=
  match text? fields "name" with
  | some "StartupError" => .startup
  | some "ConfigError" => .config (text? fields "source")
  | some "CommanderError" => .usage (intD fields "exitCode" 1)
  | _ => .plain

/-- A described error; its fields `code` and `status` go over those of its class. -/
def error (fields : Fields) : Value :=
  let kind := errorClass fields
  let message := (text? fields "message").getD ""
  let worded := match kind with
    | .config source => withSource message source
    | _ => message
  Value.ofError kind worded (["code", "status"].filterMap fun key ↦
    (Fields.get? fields key).map (key, ·))

/-- The value of a kind, if there is one of this name. -/
def ofKind? (kind : String) (fields : Fields) : Option Value :=
  match kind with
  | "undefined" => some .undefined
  | "nan" => some (.number .nan)
  | "inf" => some (.number (.infinite false))
  | "-inf" => some (.number (.infinite true))
  | "bigint" => some (.integer (((text? fields "v").bind String.toInt?).getD 0))
  | "symbol" => some (.symbol ((text? fields "v").getD ""))
  | "circular" => some .cycle
  | "error" => some (error fields)
  | _ => none

mutual

/-- The value that a description stands for. -/
def value : Value → Value
  | .list items => .list (values items)
  | .record fields =>
    let inner := valueFields fields
    match (text? inner "$").bind (ofKind? · inner) with
    | some v => v
    | none => .record inner
  | v => v

/-- The values that descriptions stand for. -/
def values : List Value → List Value
  | [] => []
  | v :: vs => value v :: values vs

/-- The fields with the values that their descriptions stand for. -/
def valueFields : List (String × Value) → List (String × Value)
  | [] => []
  | (key, v) :: rest => (key, value v) :: valueFields rest

end

end ResourceLocator.Description
