import ResourceLocator.Yaml.Meaning
import ResourceLocator.Yaml.Reading
import ResourceLocator.Yaml.Scan

/-!
# Documents

A text holds one document, or none, which is like a document without content. Directives stand
before the marker of its start, which they ask for.
-/

namespace ResourceLocator.Yaml

/-- What has been read of a text. -/
structure Reader where
  /-- What the directives say. -/
  directives : Directives := {}
  /-- Whether a directive has come that no document has followed. -/
  isPending : Bool := false
  /-- The document and what its directives say. -/
  document? : Option (Directives × Node) := none

/-- Reads a piece of a text. `fuel` bounds the depth of its trees. -/
def Reader.next (fuel : Nat) (r : Reader) : Piece → Except Fault Reader
  | .directive line => do
    -- Directives after the document do not go on from those before it.
    let before := if r.document?.isSome && !r.isPending then {} else r.directives
    return { r with directives := ← before.add line, isPending := true }
  | .document written => do
    if r.document?.isSome then throw .severalDocuments
    if r.isPending && !Token.includes .documentStart written.start then throw .directive
    let (node, _) ← (Reading.document fuel r.directives written).run 0
    return { r with document? := some (r.directives, node), isPending := false }
  | .documentEnd ending => do
    if r.document?.isNone then throw .unexpected
    let _ ← readEnding true 0 ending
    return r
  | .fault => throw .unexpected

/-- The value of the document that a text holds. -/
def read (text : String) : Except Fault Value := do
  let lexemes := scan text.toList
  let r ← (Growth.ofLexemes lexemes).foldlM (Reader.next (lexemes.length + 1)) {}
  match r.document? with
  | some (directives, node) => node.value directives
  | none => if r.isPending then throw .directive else return .null

end ResourceLocator.Yaml
