import ResourceLocator.Yaml.Reading.Basic

/-!
# Reading flow collections

The parts of a flow collection have commas between them, and there may be one after the last. A
pair in a sequence is a mapping of its own.
-/

namespace ResourceLocator.Yaml.Reading

/-- A part of a flow collection. -/
inductive Member where
  /-- An item. -/
  | item (node : Node)
  /-- A key with its value. -/
  | entry (pair : Entry)

/-- The keys with their values in a flow collection. -/
def entriesOf (members : List Member) : List Entry :=
  members.filterMap fun
    | .entry pair => some pair
    | .item _ => none

/-- The items of a flow collection. -/
def itemsOf (members : List Member) : List Node :=
  members.filterMap fun
    | .item node => some node
    | .entry _ => none

/-- A part with a comment after it. -/
def Member.addAfter (comment : List Char) : Member → Member
  | .item node => .item (node.addAfter comment)
  | .entry (key, some value) => .entry (key, some (value.addAfter comment))
  | .entry (key, none) => .entry (key.addAfter comment, none)

/-- The comment on the line of a comma, which belongs to the part before it. -/
def commaComment (start : List Token) : List Char :=
  match start.dropWhile fun t ↦ decide (t.kind = .comma) || decide (t.kind = .space) with
  | t :: _ => if t.kind = .comment then t.text.drop 1 else []
  | [] => []

/-- Gives the comment on the line of the comma in a preamble to the part before it. -/
def moveComment (start : List Token) (p : Preamble) (members : List Member) :
    List Member × Preamble :=
  let moved := commaComment start
  match members with
  | last :: before =>
    if moved.isEmpty then (members, p)
    else (last.addAfter moved :: before, { p with comment := p.comment.drop (moved.length + 1) })
  | [] => (members, p)

/-- Reads the key and the value of a part of a flow collection. -/
def flowEntry (inner : Inner) (d : Directives) (f : Flow Tree) (isShort : Bool) (p : Preamble)
    (part : Part Tree) : Reading (Entry × Nat) := do
  if part.key.any isBlock || part.value.any isBlock then throw .collectionOnLine
  let (key, keyStop) ← match part.key with
    | some tree => inner true p tree
    | none => emptyNode d true p p.stop part.start
  let sep := part.sep.getD []
  let q ← Preamble.read ⟨true, .colon, .of part.value none, keyStop, f.indent, false⟩ sep
  match q.mark?, part.value with
  | none, some _ => throw .unexpected
  | none, none => return ((key.addAfter q.comment, none), q.stop)
  | some colon, value? =>
    if isShort then
      let before := sep.takeWhile fun t ↦ decide (t.kind ≠ .colon)
      if Token.includes .newline before || isTooLong p.start colon then throw .longKey
    let (value, stop) ← match value? with
      | some tree => inner false q tree
      | none => emptyNode d false q q.stop sep
    return ((key, some value), stop)

/-- Reads a part of a flow collection. -/
def flowPart (inner : Inner) (fuel : Nat) (d : Directives) (f : Flow Tree) (isLast : Bool)
    (s : Progress Member) (part : Part Tree) : Reading (Progress Member) := do
  let isMapping := f.opening.kind = .opening true
  let p ← Preamble.read
    ⟨true, .question, .of part.key part.sep, s.offset, f.indent, false⟩ part.start
  let isMarked := p.mark?.isSome
  if !isMarked && p.isBare && part.sep.isNone && part.value.isNone then
    if !isLast || (s.members.isEmpty && p.comma?.isSome) then throw .unexpected
    return { s with offset := p.stop, comment := joinComments s.comment p.comment }
  if !isMarked && !isMapping && part.key.any (hasLineEnd fuel) then throw .longKey
  -- Commas stand between parts.
  if p.comma?.isSome = s.members.isEmpty then throw .unexpected
  let (members, p) := moveComment part.start p s.members
  if !isMapping && part.sep.isNone && !isMarked then
    if part.value.any isBlock then throw .collectionOnLine
    let (node, stop) ← match part.value with
      | some tree => inner false p tree
      | none => emptyNode d false p p.stop []
    return { s with offset := stop, members := .item node :: members }
  if isMapping then
    let (pair, stop) ← flowEntry inner d f false p part
    if isRepeated pair.1 (entriesOf members) then throw .repeatedKey
    return { s with offset := stop, members := .entry pair :: members }
  let label : Label := { place := ← place }
  let (pair, stop) ← flowEntry inner d f (!isMarked) p part
  return { s with offset := stop, members := .item (.entries label .mapping [pair]) :: members }

/-- Reads the end of a flow collection, and gives its comment and where it stops. -/
def closing (f : Flow Tree) : Except Fault (List Char × Nat) :=
  let isMapping := f.opening.kind = .opening true
  match f.ending with
  | close :: more =>
    if close.kind = .closing isMapping then readEnding true close.stop more
    else .error .unclosedFlow
  | [] => .error .unclosedFlow

end ResourceLocator.Yaml.Reading
