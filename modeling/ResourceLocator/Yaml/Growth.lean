import ResourceLocator.Yaml.Growth.Block
import ResourceLocator.Yaml.Growth.Flow

/-!
# From lexemes to written trees

Lexemes are taken one after the other, and each is offered to the tree on top of the stack: it is
taken, or the tree is complete without it, goes into the tree below, and the lexeme is offered
there.

`Growth.ofLexemes` gives the pieces of a text.
-/

namespace ResourceLocator.Yaml.Growth

/-- Offers a token to a document. -/
def offerDocument (g : Growth) (t : Token) (d : DocumentTree) : Offer :=
  if d.value.isSome then
    offerLineEnd g t (.document { d with ending := some (d.ending.getD [] ++ [t]) })
  else if t.kind = .documentStart && !Token.areGaps d.start then .refused g
  else if t.kind = .documentStart || t.kind.isProperty || t.kind.isGap then
    .taken (g.setTop (.document { d with start := d.start ++ [t] }))
  else match g.startNode? t with
    | some g => .taken g
    | none => .taken (g.addPiece .fault)

/-- Offers a token to a scalar or an alias. -/
def offerLeaf (g : Growth) (t leaf : Token) (ending : Option (List Token)) : Offer :=
  if t.kind = .colon then
    .taken (g.makeKey t (.leaf leaf none) leaf.offset leaf.indent (ending.getD []))
  else offerLineEnd g t (.node (.leaf leaf (some (ending.getD [] ++ [t]))))

/-- Offers a token to a block scalar. Its lines are what ends it. -/
def offerBlock (g : Growth) (t header : Token) (more : List Token) (indent : Nat) : Offer :=
  if t.kind.isGap then .taken (g.setTop (.node (.block header (more ++ [t]) indent [])))
  else if t.kind = .plain then
    let g := { g with atLineStart := true, indent := 0 }
    .taken (g.setTop (.node (.block header more indent t.text))).pop
  else .refused g

/-- Offers a token to the line after the end of a document. -/
def offerDocumentEnd (g : Growth) (t : Token) (ending : List Token) : Offer :=
  if t.kind = .content then .taken g
  else
    let g := g.setTop (.documentEnd (ending ++ [t]))
    .taken (if t.kind = .newline then g.pop else g)

/-! ### Taking lexemes -/

/-- Takes a token outside any document. -/
def takeOutside (g : Growth) (t : Token) : Growth :=
  match t.kind with
  | .directive => g.addPiece (.directive t.text)
  | .byteOrderMark | .space | .comment | .newline => g
  | .content => { g with stack := [.document { offset := t.offset }] }
  | .documentStart => { g with stack := [.document { offset := t.offset, start := [t] }] }
  | _ => g.addPiece .fault

/-- Offers a token to a frame. -/
def offer (g : Growth) (t : Token) : Frame → Offer
  | .document d => offerDocument g t d
  | .documentEnd ending => offerDocumentEnd g t ending
  | .node tree => match tree with
    | .leaf leaf ending => offerLeaf g t leaf ending
    | .block header more indent _ => offerBlock g t header more indent
    | .flow f => offerFlow g t f
    | .mapping b => offerMapping g t b
    | .sequence b => offerSequence g t b
    | .fault => .refused g

/-- Offers a token to the frames, from the innermost outwards. -/
def take : Nat → Token → Growth → Growth
  | 0, _, g => g
  | fuel + 1, t, g =>
    let ends : Bool := match g.stack with
      | .documentEnd _ :: _ => false
      | _ => decide (t.kind = .documentEnd)
    if ends then { g.popAll with stack := [.documentEnd []] }
    else match g.stack with
      | [] => g.takeOutside t
      | top :: _ => match g.offer t top with
        | .taken g => g
        | .refused g => take fuel t g.pop

/-- Takes a lexeme. -/
def next (g : Growth) (l : Lexeme) : Growth :=
  let t : Token := ⟨l.kind, l.text, g.offset, g.indent⟩
  let size := Text.unitCount l.text
  let step := fun (g : Growth) ↦ take (g.stack.length + 2) t g
  let advance := fun (g : Growth) ↦ { g with offset := g.offset + size }
  match l.kind with
  | .unknown => advance (g.addFault t)
  | .plain => advance (step { g with atLineStart := false })
  | .content | .flowBreak => step g
  | .newline => advance { step g with atLineStart := true, indent := 0 }
  | .space =>
    let g := step g
    let counts := g.atLineStart && l.text.head? == some ' '
    advance (if counts then { g with indent := g.indent + size } else g)
  | .question | .colon | .dash =>
    let g := step g
    advance (if g.atLineStart then { g with indent := g.indent + size } else g)
  | _ => advance { step g with atLineStart := false }

/-- The pieces of a text. -/
def ofLexemes (lexemes : List Lexeme) : List Piece :=
  (lexemes.foldl next {}).popAll.pieces.reverse

end ResourceLocator.Yaml.Growth
