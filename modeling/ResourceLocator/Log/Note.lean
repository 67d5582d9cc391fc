import ResourceLocator.Value.Json
import ResourceLocator.Value.Text

/-!
# Entries of the debug log

An entry is one line: its kind, the component that made it, a message, and fields as
`key=value`. A text is shown as it is and any other value as JSON; an absent value is not shown.
-/

namespace ResourceLocator

/-- The kind of an entry. -/
inductive NoteKind where
  /-- A detail. -/
  | debug
  /-- A fact. -/
  | info
  /-- A fault. -/
  | error
  deriving DecidableEq, Repr

/-- The word for a kind of entries. -/
def NoteKind.word : NoteKind → String
  | .debug => "DEBUG"
  | .info => "INFO"
  | .error => "ERROR"

/-- An entry of the debug log. -/
structure Note where
  /-- Its kind. -/
  kind : NoteKind
  /-- The component that made it. -/
  component : String
  /-- Its message. -/
  message : String
  /-- Its fields. -/
  fields : Fields := []

namespace Note

/-- A value as an entry shows it. -/
def shownValue : Value → String
  | .text s => s
  | v => match Json.write? v with
    | .ok (some text) => text
    | .ok none => match v.toText with
      | .ok text => text
      | .error _ => "[unserializable]"
    | .error _ => "[unserializable]"

/-- A field as an entry shows it. -/
def shownField (field : String × Value) : String :=
  match field.2 with
  | .undefined => ""
  | v => " " ++ field.1 ++ "=" ++ shownValue v

/-- An entry without its time. -/
def line (note : Note) : String :=
  note.kind.word ++ " [" ++ note.component ++ "] " ++ note.message ++
    String.join (note.fields.map shownField)

end Note

end ResourceLocator
