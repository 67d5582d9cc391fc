import ResourceLocator.Yaml.Node
import ResourceLocator.Yaml.Preamble

/-!
# Reading written trees

Reading a tree gives its node and where it stops. What reads the parts of a collection is given the
reader of the trees in it, an `Inner`, and goes on from a `Progress` with the parts before.
-/

namespace ResourceLocator.Yaml

/-- Reading with the number of the places that have been given. -/
abbrev Reading := StateT Nat (Except Fault)

namespace Reading

/-- A new place. -/
def place : Reading Nat := modifyGet fun n ↦ (n, n + 1)

/-- What reads the trees in a collection, each as a key or not, with its preamble. -/
abbrev Inner := Bool → Preamble → Tree → Reading (Node × Nat)

/-- A collection as far as it has been read. -/
structure Progress (α : Type) where
  /-- Where its last part stops. -/
  offset : Nat
  /-- Its parts, the last one first. -/
  members : List α := []
  /-- The comment in it that belongs to none of its parts. -/
  comment : List Char := []
  /-- Where the last such comment stops. -/
  commentStop? : Option Nat := none

/-! ### Empty nodes -/

/-- What a node has beside its content. The comment of a preamble stands before the node, or after
it if the node is empty. -/
def labelOf (d : Directives) (p : Preamble) (isEmpty : Bool) : Reading Label := do
  let place ← place
  let anchor? ← match p.anchor? with
    | none => pure none
    | some t =>
      if t.text.length ≤ 1 then throw .emptyName
      pure (some (String.ofList (t.text.drop 1)))
  let tag? ← match p.tag? with
    | none => pure none
    | some t => d.resolve t.text
  let label : Label := { place, anchor?, tag?, isSpaced := p.isSpaced }
  return if isEmpty then { label with after := p.comment } else { label with before := p.comment }

/-- What a scalar is read as. -/
def datumOf (d : Directives) (isKey : Bool) (label : Label) (style : Style) (text : List Char) :
    Except Fault Datum :=
  match label.tag? with
  | some tag =>
    if tag = "!" then .ok ⟨.text (String.ofList text), .plain⟩
    else d.version.readTagged tag text
  | none =>
    if style = .plain then .ok (d.version.readPlain isKey text)
    else .ok ⟨.text (String.ofList text), .plain⟩

/-- How many units tokens have. -/
def size (tokens : List Token) : Nat :=
  tokens.foldl (fun units t ↦ units + Text.unitCount t.text) 0

/-- Where an empty node stops that stands after some tokens: after the last of them that is no
gap, and the spaces after that. -/
def emptyStop (offset : Nat) (before : List Token) : Nat :=
  let gaps := (before.reverse.takeWhile (·.kind.isGap)).reverse
  let spaces := if gaps.length = before.length then []
    else gaps.takeWhile fun t ↦ decide (t.kind = .space)
  offset - size gaps + size spaces

/-- An empty node. -/
def emptyNode (d : Directives) (isKey : Bool) (p : Preamble) (offset : Nat)
    (before : List Token) : Reading (Node × Nat) := do
  let label ← labelOf d p true
  let datum ← datumOf d isKey label .plain []
  let stop := if p.comment.isEmpty then emptyStop offset before else p.stop
  return (.scalar label ⟨.plain, [], datum⟩, stop)

/-! ### Keys -/

/-- Whether a tree is a block collection. -/
def isBlock : Tree → Bool
  | .mapping _ | .sequence _ => true
  | _ => false

/-- Whether a line ends in a tree that is a key without a mark. The first argument bounds the
depth. -/
def hasLineEnd : Nat → Tree → Bool
  | 0, _ => true
  | fuel + 1, tree =>
    let inTokens := fun tokens ↦ Token.includes .newline tokens
    match tree with
    | .leaf t ending => t.text.contains '\n' || inTokens (ending.getD [])
    | .flow f => f.parts.any fun part ↦
        inTokens part.start || inTokens (part.sep.getD []) ||
          part.key.any (hasLineEnd fuel) || part.value.any (hasLineEnd fuel)
    | _ => true

/-- Whether a key occurs in pairs. -/
def isRepeated (key : Node) (pairs : List Entry) : Bool :=
  match key.scalarValue? with
  | some value => pairs.any fun (other, _) ↦ other.scalarValue?.any (sameScalar value)
  | none => false

/-- Whether a key without a mark is too long: its mark of a value may come at most 1024 units after
its start. -/
def isTooLong (start : Nat) (colon : Token) : Bool := start + 1024 < colon.offset

end Reading

end ResourceLocator.Yaml
