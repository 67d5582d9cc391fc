import ResourceLocator.Yaml.Growth
import ResourceLocator.Yaml.Reading.Block
import ResourceLocator.Yaml.Reading.Flow
import ResourceLocator.Yaml.Reading.Scalar

/-!
# From written trees to nodes

A tree is judged and read from its root on. One function, `Reading.tree`, goes down; what a tag asks
of a collection is settled when its parts have been read.
-/

namespace ResourceLocator.Yaml.Reading

/-! ### Tagged collections -/

/-- The parts of a collection. -/
inductive Content where
  /-- Items. -/
  | items (nodes : List Node)
  /-- Keys with their values. -/
  | entries (pairs : List Entry)

/-- Whether a value is nothing but null. -/
def isNothing : Option Node → Bool
  | none => true
  | some (.scalar label content) =>
    (match content.datum.value with
      | .null => true
      | _ => false) && label.before.isEmpty && label.after.isEmpty && label.tag?.isNone
  | some _ => false

/-- A key that no mapping gives. -/
def nullKey : Node := .scalar { place := 0 } ⟨.plain, "null".toList, ⟨.null, .plain⟩⟩

/-- An item as a pair: the only pair of a mapping, or a key without a value. -/
def pairOf : Node → Except Fault Entry
  | .entries label form pairs =>
    if form = .pairs || form = .table then .ok (.entries label form pairs, none)
    else
      let before := fun (l : Label) ↦ { l with before := joinComments label.before l.before }
      let after := fun (l : Label) ↦ { l with after := joinComments label.after l.after }
      match pairs with
      | [] => .ok (nullKey.mapLabel (after ∘ before), none)
      | [(key, some value)] => .ok (key.mapLabel before, some (value.mapLabel after))
      | [(key, none)] => .ok (key.mapLabel (after ∘ before), none)
      | _ => .error .tag
  | node => .ok (node, none)

/-- Whether a scalar key occurs twice in pairs. -/
def hasRepeatedKey : List Entry → Bool
  | [] => false
  | (key, _) :: rest =>
    (match key.scalarValue? with
      | some value => rest.any fun (other, _) ↦ other.scalarValue?.any (sameInTable value)
      | none => false) || hasRepeatedKey rest

/-- A collection as its tag asks. Only a few tags ask for something. -/
def collection (label : Label) : Content → Except Fault Node
  | .entries pairs =>
    if label.tag? = some (commonTags ++ "set") then
      if pairs.all fun (_, value?) ↦ isNothing value? then .ok (.entries label .set pairs)
      else .error .tag
    else if label.tag? = some "!" then
      .ok (.entries { label with tag? := some (commonTags ++ "map") } .mapping pairs)
    else .ok (.entries label .mapping pairs)
  | .items nodes =>
    if label.tag? = some (commonTags ++ "pairs") then do
      return .entries label .pairs (← nodes.mapM pairOf)
    else if label.tag? = some (commonTags ++ "omap") then do
      let pairs ← nodes.mapM pairOf
      if hasRepeatedKey pairs then .error .repeatedKey else .ok (.entries label .table pairs)
    else if label.tag? = some "!" then
      .ok (.sequence { label with tag? := some (commonTags ++ "seq") } nodes)
    else .ok (.sequence label nodes)

/-! ### Trees -/

/-- Reads the parts of a collection. -/
def content (inner : Inner) (fuel : Nat) (d : Directives) (p : Preamble) :
    Tree → Reading (Content × List Char × Nat)
  | .mapping b => do
    let s ← b.parts.reverse.foldlM (entry inner fuel d b) { offset := b.offset }
    return (.entries s.members.reverse, s.comment, ← blockStop s)
  | .sequence b => do
    judgeSequenceProperties p
    let s ← b.parts.reverse.foldlM (item inner d b) { offset := b.offset }
    return (.items s.members.reverse, s.comment, ← blockStop s)
  | .flow f => do
    let last := f.parts.length - 1
    let s ← f.parts.reverse.zipIdx.foldlM
      (fun s (part, i) ↦ flowPart inner fuel d f (i = last) s part) { offset := f.opening.stop }
    let (comment, stop) ← closing f
    let members := s.members.reverse
    let content := if f.opening.kind = .opening true then Content.entries (entriesOf members)
      else .items (itemsOf members)
    return (content, joinComments s.comment comment, stop)
  | _ => throw .unexpected

/-- Reads a tree. The first argument bounds its depth. -/
def tree : Nat → Directives → (isKey isRoot : Bool) → Preamble → Tree → Reading (Node × Nat)
  | 0, _, _, _, _, _ => throw .unexpected
  | fuel + 1, d, isKey, isRoot, p, written => match written with
    | .leaf t ending => leaf d isKey p t (ending.getD [])
    | .block header more indent source => block d isKey isRoot p header more indent source
    | .fault => throw .unexpected
    | written => do
      let label ← labelOf d p false
      let inner : Inner := fun isKey p written ↦ tree fuel d isKey false p written
      let (content, after, stop) ← content inner fuel d p written
      return (← collection { label with after } content, stop)

/-- Reads a document. The first argument bounds the depth of its tree. -/
def document (fuel : Nat) (d : Directives) (written : DocumentTree) : Reading Node := do
  let p ← Preamble.read
    ⟨false, .documentStart, .of written.value written.ending, written.offset, 0, true⟩
    written.start
  if p.mark?.isSome && written.value.any isBlock && !p.hasLineEnd then throw .collectionOnLine
  let (node, stop) ← match written.value with
    | some value => tree fuel d false true p value
    | none => emptyNode d false p p.stop written.start
  let _ ← readEnding false stop (written.ending.getD [])
  return node

end ResourceLocator.Yaml.Reading
