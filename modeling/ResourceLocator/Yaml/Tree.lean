import ResourceLocator.Yaml.Token

/-!
# Written trees

A written tree is what a node looks like in a text, with all its tokens: blanks and comments are
kept where they stand. A tree may be wrong in many ways, which are judged when it is read.
-/

namespace ResourceLocator.Yaml

/-- A part of a collection: an item, or a key with its value. -/
structure Part (α : Type) where
  /-- The tokens before the key or the item. -/
  start : List Token := []
  /-- Whether the key has a mark. -/
  isExplicit : Bool := false
  /-- The key. -/
  key : Option α := none
  /-- The tokens between the key and the value, as soon as there is a key or a mark of the value. -/
  sep : Option (List Token) := none
  /-- The value or the item. -/
  value : Option α := none

/-- A block collection. -/
structure Block (α : Type) where
  /-- Where it starts. -/
  offset : Nat
  /-- Its indentation. -/
  indent : Nat
  /-- Its parts, the last one first. -/
  parts : List (Part α)

/-- A flow collection. -/
structure Flow (α : Type) where
  /-- Its opening bracket. -/
  opening : Token
  /-- Its indentation. -/
  indent : Nat
  /-- Its parts, the last one first. -/
  parts : List (Part α) := []
  /-- Its closing bracket and the tokens after it on its line. -/
  ending : List Token := []

/-- A written tree. -/
inductive Tree where
  /-- A scalar or an alias, and the tokens after it on its line. -/
  | leaf (token : Token) (ending : Option (List Token))
  /-- A block scalar: the tokens of its header, the indentation around it, and its lines. -/
  | block (header : Token) (more : List Token) (indent : Nat) (source : List Char)
  /-- A flow collection. -/
  | flow (flow : Flow Tree)
  /-- A block mapping. -/
  | mapping (block : Block Tree)
  /-- A block sequence. -/
  | sequence (block : Block Tree)
  /-- Something that is no node. -/
  | fault
  deriving Inhabited

namespace Tree

/-- Whether a tree is a flow node, block scalars apart. -/
def isFlow : Tree → Bool
  | .leaf _ _ | .flow _ => true
  | _ => false

/-- The indentation of a tree, if it has one. -/
def indent? : Tree → Option Nat
  | .leaf t _ => some t.indent
  | .block _ _ indent _ => some indent
  | .flow f => some f.indent
  | .mapping b | .sequence b => some b.indent
  | .fault => none

/-- The tokens at the end of a tree, if any can stand there. -/
def ending? : Tree → Option (List Token)
  | .leaf _ ending => ending
  | .flow f => some f.ending
  | _ => none

/-- The tree with more tokens at its end. -/
def addEnding : Tree → List Token → Tree
  | .leaf t ending, more => .leaf t (some (ending.getD [] ++ more))
  | .flow f, more => .flow { f with ending := f.ending ++ more }
  | tree, _ => tree

/-- The items of a flow sequence look like keys without values as long as no colon has come; now
they are items. -/
def asItem (part : Part Tree) : Part Tree :=
  match part.sep, part.value with
  | some sep, none =>
    if Token.includes .question part.start || Token.includes .colon sep then part
    else match part.key with
      | some key =>
        if key.isFlow then
          { start := part.start, isExplicit := part.isExplicit, value := some (key.addEnding sep) }
        else
          { start := part.start ++ sep, isExplicit := part.isExplicit, value := some key }
      | none => { start := part.start ++ sep, isExplicit := part.isExplicit }
  | _, _ => part

/-- A flow collection at its end. -/
def closeFlow (f : Flow Tree) : Flow Tree :=
  if f.opening.kind = .opening false then { f with parts := f.parts.map asItem } else f

end Tree

end ResourceLocator.Yaml
