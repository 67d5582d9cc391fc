import ResourceLocator.Text.Blank
import ResourceLocator.Yaml.Writing.Comment
import ResourceLocator.Yaml.Writing.Scalar

/-!
# Writing nodes

A key that is a collection is known by its text, which is that of a flow collection. It stands on
one line if it is short and has no comments; otherwise each of its parts has a line of its own.

`Writing.node` writes a node with its properties, and `Node.text?` a collection without.
-/

namespace ResourceLocator.Yaml

namespace Writing

open Quoting (Spot)

/-- A part of a collection as it is written. -/
structure Line where
  /-- The lines before it. -/
  before : List (List Char)
  /-- The part. -/
  text : List Char
  /-- The comment after it. -/
  comment : List Char
  /-- Whether it asks for a line of its own. -/
  asksForLine : Bool

/-- The lines before a node. -/
def linesBefore (indent : Nat) (label : Label) : List (List Char) :=
  (if label.isSpaced then [[]] else []) ++
    (if label.before.isEmpty then []
     else [(commentLines indent label.before).dropWhile Text.isBlank])

/-- A part as a line; `isLast` says that no comma comes after it. -/
def Line.written (indent : Nat) (isLast : Bool) (line : Line) : List (List Char) :=
  let text := if isLast then line.text else line.text ++ [',']
  line.before ++ [text ++ commentAfter text indent line.comment]

/-- The lines of the parts of a collection, with commas between them. -/
def separated (indent : Nat) : List Line → List (List Char)
  | [] => []
  | [line] => line.written indent true
  | line :: lines => line.written indent false ++ separated indent lines

/-- A collection with its brackets. `indent` is its indentation, and `inner` that of its parts. -/
def enclosed (opening closing : Char) (indent inner : Nat) (parts : List Line) : List Char :=
  let lines := separated inner parts
  let width := lines.foldl (fun width line ↦ width + (Text.unitCount line + 2)) 2
  let needsLines := parts.any (fun line ↦
    line.asksForLine || !line.before.isEmpty || !line.comment.isEmpty || line.text.contains '\n') ||
      Folding.lineWidth < width
  if lines.isEmpty then [opening, closing]
  else if needsLines then
    let start := '\n' :: List.replicate (indent + 2) ' '
    opening :: lines.flatMap (fun line ↦ if line.isEmpty then ['\n'] else start ++ line) ++
      '\n' :: List.replicate indent ' ' ++ [closing]
  else opening :: ' ' :: [' '].intercalate lines ++ [' ', closing]

/-- The properties of a node as they are written. -/
def properties (doc : Document) (label : Label) : List Char :=
  let anchor := match label.anchor? with
    | some name => ['&' :: name.toList]
    | none => []
  let tag := match label.tag? with
    | some tag => [doc.directives.abbreviate tag]
    | none => []
  [' '].intercalate (anchor ++ tag)

/-- Whether a key needs a mark: collections, aliases and block scalars do. -/
def needsMark : Node → Bool
  | .scalar _ s => s.style = .block
  | _ => true

/-- What writes the nodes in a collection. -/
abbrev Inner := Spot → Node → List Char

/-- How much of its first line is taken at a spot after the properties of a node. -/
def startAfter (doc : Document) (spot : Spot) (node : Node) : Option Nat :=
  let written := match node with
    | .alias .. => []
    | node => properties doc node.label
  if written.isEmpty then spot.start?
  else some (spot.start?.getD 0 + Text.unitCount written + 1)

/-- Whether a line ends after the properties that a text starts with. -/
def endsAfterProperties (text : List Char) : Bool :=
  let afterWord := fun cs : List Char ↦ cs.dropWhile fun c ↦ c ≠ ' ' && c ≠ '\n'
  match text with
  | '!' :: rest => (afterWord rest).head? == some '\n'
  | '&' :: rest => match afterWord rest with
    | ' ' :: '!' :: more => (afterWord more).head? == some '\n'
    | more => more.head? == some '\n'
  | _ => false

/-- What stands between a key and its value. -/
def gapBefore (indent : Nat) (isMarked hasComment : Bool) (value : Node) (text : List Char) :
    List Char :=
  let line := '\n' :: List.replicate indent ' '
  let label := value.label
  let isCollection : Bool := match value with
    | .sequence .. | .entries .. => true
    | _ => false
  if hasComment || label.isSpaced || !label.before.isEmpty then
    (if label.isSpaced then ['\n'] else []) ++
      (if label.before.isEmpty then [] else '\n' :: commentLines indent label.before) ++ line
  else if !isMarked && isCollection then
    if text.contains '\n' && !endsAfterProperties text then line else [' ']
  else if text.isEmpty || text.head? == some '\n' then []
  else [' ']

/-- Writes a key with its value in a collection whose indentation is `outer`. `keysOnly` says that
no values are written. -/
def entry (inner : Inner) (doc : Document) (outer : Nat) (spot : Spot) (keysOnly : Bool)
    (pair : Entry) : Line :=
  let (key, value?) := pair
  let isMarked := needsMark key
  let comment := key.label.after
  let indent := spot.indent + 2
  let keySpot : Spot := { spot with indent, isKey := !isMarked && !keysOnly }
  let keyText := inner keySpot key
  let before := linesBefore outer key.label
  let after := match value? with
    | some value => value.label.after
    | none => comment
  let asksForLine := !comment.isEmpty ||
    value?.any fun value ↦ !value.label.before.isEmpty
  let onlyKey :=
    if keyText.isEmpty then ['?'] else if isMarked then '?' :: ' ' :: keyText else keyText
  let text := match keysOnly, value? with
    | true, _ | _, none => onlyKey
    | false, some value =>
      let start := if isMarked then '?' :: ' ' :: keyText else keyText ++ [':']
      let start := start ++ commentAfter start indent comment
      let start := if isMarked then start ++ '\n' :: List.replicate spot.indent ' ' ++ [':']
        else start
      let isScalar : Bool := match value with
        | .scalar .. => true
        | _ => false
      let start? := if !isMarked && comment.isEmpty && isScalar then
          some (Text.unitCount start + 1)
        else startAfter doc keySpot key
      let valueText := inner { spot with indent, start? } value
      start ++ gapBefore indent isMarked (!comment.isEmpty) value valueText ++ valueText
  ⟨before, text, after, asksForLine⟩

/-- Writes the items of a sequence whose indentation is `outer`, from a spot on. The properties of
an item count as a part of the first line of those after it. -/
def items (inner : Inner) (doc : Document) (outer : Nat) : Spot → List Node → List Line
  | _, [] => []
  | spot, node :: nodes =>
    ⟨linesBefore outer node.label, inner spot node, node.label.after, false⟩ ::
      items inner doc outer { spot with start? := startAfter doc spot node } nodes

/-- Writes a collection without its properties. -/
def collection (inner : Inner) (doc : Document) (spot : Spot) : Node → List Char
  | .sequence _ nodes =>
    let itemSpot : Spot := { spot with indent := spot.indent + 4, isKey := false }
    enclosed '[' ']' spot.indent itemSpot.indent (items inner doc spot.indent itemSpot nodes)
  | .entries _ form pairs =>
    let isMapping := form = .mapping || form = .set
    let entrySpot : Spot :=
      { spot with indent := spot.indent + (if isMapping then 2 else 4), isKey := false }
    let keysOnly := form = .set || (form = .mapping && pairs.all (·.2.isNone))
    let lines := pairs.map (entry inner doc spot.indent entrySpot keysOnly)
    if isMapping then enclosed '\x7b' '\x7d' spot.indent entrySpot.indent lines
    else enclosed '[' ']' spot.indent entrySpot.indent lines
  | _ => []

/-- What is written for a collection whose tag asks for a scalar. -/
def scalarInstead? (doc : Document) (tag? : Option String) : Option String :=
  let common := [("int", ".nan"), ("float", ".nan"), ("bool", "false"), ("null", "null"),
    ("str", "undefined")]
  let further := [("binary", ""), ("timestamp", ""), ("merge", "<<")]
  let texts := if tag?.any doc.knows then further else common
  (texts.find? fun (tag, _) ↦ tag? = some (commonTags ++ tag)).map (·.2)

/-- Writes a node. The first argument bounds its depth. -/
def node : Nat → Document → Spot → Node → List Char
  | 0, _, _, _ => []
  | fuel + 1, doc, spot, written =>
    let spot := { spot with start? := startAfter doc spot written }
    let start := properties doc written.label
    let withStart := fun body ↦ if start.isEmpty then body else start ++ ' ' :: body
    match written with
    | .alias _ name => '*' :: name.toList
    | .scalar label s => withStart (scalar doc spot label.tag? s)
    | written => match scalarInstead? doc written.label.tag? with
      | some text => start ++ '\n' :: List.replicate spot.indent ' ' ++ text.toList
      | none => withStart (collection (node fuel doc) doc spot written)

/-- Whether a name can stand in a flow collection. -/
def isName (name : String) : Bool :=
  name.toList.all fun c ↦ !(c.toNat ≤ 0x19 || Text.isBlank c || isFlowMark c)

/-- Whether a node inside a collection can be written. A text whose tag asks for an instant
cannot, and names must not hold what ends them. -/
def isWritable : Node → Bool
  | .alias _ name => isName name
  | .scalar label s =>
    label.anchor?.all isName &&
      !(label.tag? = some ScalarKind.instantTag && match s.datum.value with
        | .text _ => true
        | _ => false)
  | node => node.label.anchor?.all isName

end Writing

/-- The text of a collection, if it has one. -/
def Node.text? (doc : Document) (written : Node) : Option String :=
  let nodes := written.all
  let inner := Writing.node nodes.length doc
  if (nodes.drop 1).all Writing.isWritable then
    some (String.ofList (Writing.collection inner doc { indent := 0 } written))
  else none

end ResourceLocator.Yaml
