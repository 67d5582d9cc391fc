import ResourceLocator.Number.Shortest
import ResourceLocator.Text.Utf8
import ResourceLocator.Value.Basic

/-!
# The text of a value

Every value has a text, as it stands in a message, but for two kinds: a list that holds a
symbol, and a record with a field `toString` of its own, which no data can call.
-/

namespace ResourceLocator.Value

/-- Why a value has no text or no number. -/
inductive Inconvertible where
  /-- A symbol that stands inside a list has no text. -/
  | symbolAsText
  /-- A symbol has no number. -/
  | symbolAsNumber
  /-- A record hides the way to its text. -/
  | notPrimitive
  deriving DecidableEq, Repr

/-- The text of an error: its class and its message. -/
def errorText (kind : ErrorClass) (message : String) : String :=
  if message = "" then kind.name else kind.name ++ ": " ++ message

mutual

/-- The text of a value. -/
def toText : Value → Except Inconvertible String
  | .undefined => .ok "undefined"
  | .null => .ok "null"
  | .bool b => .ok (if b then "true" else "false")
  | .number n => .ok n.text
  | .integer i => .ok (toString i)
  | .symbol name => .ok ("Symbol(" ++ name ++ ")")
  | .text s => .ok s
  | .list items => (itemTexts items).map (String.intercalate ",")
  | .record fields =>
    if (Fields.get? fields "toString").isSome then .error .notPrimitive
    else .ok "[object Object]"
  | .error kind message _ => .ok (errorText kind message)
  | .cycle => .ok "[object Object]"
  | .bytes bs => .ok (Text.Utf8.decode bs)
  | .instant t => .ok t.words
  | .set _ => .ok "[object Set]"
  | .table _ => .ok "[object Map]"

/-- The texts of the items of a list: absent and null items are empty, symbols have none. -/
def itemTexts : List Value → Except Inconvertible (List String)
  | [] => .ok []
  | v :: vs => do
    let head ← match v with
      | .undefined => .ok ""
      | .null => .ok ""
      | .symbol _ => .error .symbolAsText
      | v => toText v
    return head :: (← itemTexts vs)

end

end ResourceLocator.Value
