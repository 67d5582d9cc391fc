import ResourceLocator.Yaml.Reading.Basic
import ResourceLocator.Yaml.ScalarText

/-!
# Reading scalars and aliases
-/

namespace ResourceLocator.Yaml.Reading

/-- The text of a scalar, and how it is written. -/
def scalarText (t : Token) : Except Fault (Style × List Char) :=
  match t.kind with
  | .single => return (.single, ← ScalarText.single t.text)
  | .double => return (.double, ← ScalarText.double t.text)
  | _ => return (.plain, ← ScalarText.plain t.text)

/-- Reads a scalar or an alias. -/
def leaf (d : Directives) (isKey : Bool) (p : Preamble) (t : Token) (ending : List Token) :
    Reading (Node × Nat) := do
  let (after, stop) ← readEnding true t.stop ending
  if t.kind = .alias then
    if !p.isBare then throw .aliasProperty
    if t.text.length ≤ 1 then throw .emptyName
    let label ← labelOf d p false
    return (.alias { label with after } (String.ofList (t.text.drop 1)), stop)
  let (style, text) ← scalarText t
  let isEmpty := t.kind = .plain && t.text.isEmpty
  let label ← labelOf d p isEmpty
  let label := if label.after.isEmpty then { label with after } else label
  return (.scalar label ⟨style, text, ← datumOf d isKey label style text⟩, stop)

/-- The comment on the line of the header of a block scalar. -/
def headerComment : Bool → List Token → Except Fault (List Char)
  | _, [] => .ok []
  | hasSpace, t :: rest =>
    match t.kind with
    | .space => headerComment true rest
    | .newline => headerComment hasSpace rest
    | .comment =>
      if hasSpace then (headerComment hasSpace rest).map fun more ↦
        if more.isEmpty then t.text.drop 1 else more
      else .error .commentNotApart
    | _ => .error .blockHeader

/-- Reads a block scalar. -/
def block (d : Directives) (isKey isRoot : Bool) (p : Preamble) (header : Token)
    (more : List Token) (indent : Nat) (source : List Char) : Reading (Node × Nat) := do
  let after ← headerComment false more
  let text ← ScalarText.block header.text source indent isRoot
  let label ← labelOf d p false
  let datum ← datumOf d isKey label .block text
  let stop := header.stop + size more + Text.unitCount source
  return (.scalar { label with after } ⟨.block, text, datum⟩, stop)

end ResourceLocator.Yaml.Reading
