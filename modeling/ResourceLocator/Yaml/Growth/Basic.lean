import ResourceLocator.Yaml.Tree

/-!
# Written trees that grow

The trees of a text that are not complete yet stand on a stack, the innermost on top. A complete
tree goes into the tree below it, which takes it as the value of the key that waits for one, as a
key, or as an item.
-/

namespace ResourceLocator.Yaml

/-- A document as it is written. -/
structure DocumentTree where
  /-- Where it starts. -/
  offset : Nat
  /-- The tokens before its content. -/
  start : List Token := []
  /-- Its content. -/
  value : Option Tree := none
  /-- The tokens after its content. -/
  ending : Option (List Token) := none

/-- A part of a text. -/
inductive Piece where
  /-- A directive. -/
  | directive (text : List Char)
  /-- A document. -/
  | document (tree : DocumentTree)
  /-- The marker of the end of a document and the tokens after it on its line. -/
  | documentEnd (ending : List Token)
  /-- Something that stands outside any document. -/
  | fault

/-- A tree that is not complete. -/
inductive Frame where
  /-- A document. -/
  | document (tree : DocumentTree)
  /-- The line of the marker of the end of a document. -/
  | documentEnd (ending : List Token)
  /-- A node. -/
  | node (tree : Tree)

/-- How far the trees have grown. -/
structure Growth where
  /-- How many units have been taken. -/
  offset : Nat := 0
  /-- The indentation of the line so far. -/
  indent : Nat := 0
  /-- Whether only blanks and marks have been taken from the line. -/
  atLineStart : Bool := true
  /-- Whether a key has been taken from the line. -/
  onKeyLine : Bool := false
  /-- The trees that are not complete, the innermost first. -/
  stack : List Frame := []
  /-- The complete pieces, the last one first. -/
  pieces : List Piece := []

namespace Growth

/-! ### Completing trees -/

/-- Adds a complete piece. -/
def addPiece (g : Growth) (piece : Piece) : Growth := { g with pieces := piece :: g.pieces }

/-- A block collection without the blank lines and comments at its end that belong to the
collection around it, and those. -/
def splitTail (b : Block Tree) : Block Tree × List Token :=
  match b.parts with
  | last :: rest =>
    let isOutside := fun (t : Token) ↦ decide (t.kind ≠ .comment) || t.indent < b.indent
    if last.sep.isNone && last.value.isNone && Token.areGaps last.start &&
        (b.indent = 0 || last.start.all isOutside) then ({ b with parts := rest }, last.start)
    else (b, [])
  | [] => (b, [])

/-- A block collection as a value, and the tokens that it leaves to the collection around it. -/
def splitValue : Tree → Tree × List Token
  | .mapping b => let (b, tail) := splitTail b; (.mapping b, tail)
  | .sequence b => let (b, tail) := splitTail b; (.sequence b, tail)
  | tree => (tree, [])

/-- A part that consists of tokens only, if there are any. -/
def tailPart (tail : List Token) : List (Part Tree) :=
  if tail.isEmpty then [] else [{ start := tail }]

/-- A complete tree as it stands in the tree around it, whose indentation is given: block scalars
have that indentation, and flow collections that are a whole document have none. -/
def settle (outer? : Option Nat) : Tree → Tree
  | .block header more _ source => .block header more (outer?.getD 0) source
  | .flow f => .flow (Tree.closeFlow { f with indent := if outer?.isNone then 0 else f.indent })
  | tree => tree

/-- Puts a complete tree into a mapping: as the value of the last key if that waits for one, or
else as a key. -/
def receiveMapping (g : Growth) (b : Block Tree) (tree : Tree) : Growth × Block Tree :=
  match b.parts with
  | [] => (g, { b with parts := [{ key := some tree, sep := some [] }] })
  | it :: before =>
    match it.value, it.sep with
    | some _, _ => ({ g with onKeyLine := true },
        { b with parts := { key := some tree, sep := some [] } :: it :: before })
    | none, some _ =>
      let (value, tail) := splitValue tree
      (g, { b with parts := tailPart tail ++ { it with value := some value } :: before })
    | none, none => ({ g with onKeyLine := !it.isExplicit },
        { b with parts := { it with key := some tree, sep := some [] } :: before })

/-- Puts a complete tree into a sequence, as the last item if that has no value yet. -/
def receiveSequence (b : Block Tree) (tree : Tree) : Block Tree :=
  let (value, tail) := splitValue tree
  let parts := match b.parts with
    | it :: before =>
      if it.value.isSome then { value := some value } :: it :: before
      else { it with value := some value } :: before
    | [] => [{ value := some value }]
  { b with parts := tailPart tail ++ parts }

/-- Puts a complete tree into a flow collection. -/
def receiveFlow (f : Flow Tree) (tree : Tree) : Flow Tree :=
  let new : Part Tree := { key := some tree, sep := some [] }
  let parts := match f.parts with
    | [] => [new]
    | it :: before =>
      if it.value.isSome then new :: it :: before
      else if it.sep.isSome then { it with value := some tree } :: before
      else { it with key := some tree, sep := some [] } :: before
  { f with parts }

/-- Puts a complete tree into the innermost one that is not. -/
def receive (g : Growth) (tree : Tree) : Growth :=
  match g.stack with
  | [] => g.addPiece .fault
  | top :: below =>
    let put := fun (g : Growth) (frame : Frame) ↦ { g with stack := frame :: below }
    match top with
    | .document d =>
      let (value, tail) := splitValue (settle none tree)
      put g (.document { d with
        value := some value, ending := if tail.isEmpty then d.ending else some tail })
    | .documentEnd _ => g.addPiece .fault
    | .node outer =>
      let tree := settle (some (outer.indent?.getD 0)) tree
      match outer with
      | .mapping b =>
        let (g, b) := receiveMapping g b tree
        put g (.node (.mapping b))
      | .sequence b => put g (.node (.sequence (receiveSequence b tree)))
      | .flow f => put g (.node (.flow (receiveFlow f tree)))
      | _ => put g (.node outer)

/-- Completes the innermost tree. -/
def pop (g : Growth) : Growth :=
  match g.stack with
  | [] => g.addPiece .fault
  | top :: below =>
    let g := { g with stack := below }
    match top with
    | .document d => g.addPiece (.document d)
    | .documentEnd ending => g.addPiece (.documentEnd ending)
    | .node tree => g.receive tree

/-- Completes all trees. -/
def popAll (g : Growth) : Growth := g.stack.foldl (fun g _ ↦ g.pop) g

/-- Adds something that is no node. -/
def addFault (g : Growth) (t : Token) : Growth :=
  match g.stack with
  | .node (.block header more indent source) :: below =>
    { g with stack := .node (.block header (more ++ [t]) indent source) :: below }
  | .node (.leaf _ _) :: _ => g.pop.receive .fault
  | .documentEnd _ :: _ => g.pop.receive .fault
  | _ => g.receive .fault

/-! ### Offering a token -/

/-- What comes of offering a token to a tree. -/
inductive Offer where
  /-- The token is taken. -/
  | taken (g : Growth)
  /-- The tree is complete without it. -/
  | refused (g : Growth)

/-- Puts a frame in place of the top. -/
def setTop (g : Growth) (frame : Frame) : Growth := { g with stack := frame :: g.stack.drop 1 }

/-- Puts a frame on top. -/
def push (g : Growth) (tree : Tree) : Growth := { g with stack := .node tree :: g.stack }

/-- Offers a token to something complete that only the end of its line is missing from; `add` adds
the token to that end. -/
def offerLineEnd (g : Growth) (t : Token) (add : Frame) : Offer :=
  match t.kind with
  | .comma | .documentStart | .documentEnd | .closing _ | .colon => .refused g
  | .newline => .taken ({ g with onKeyLine := false }.setTop add).pop
  | _ => .taken (g.setTop add)

/-- Takes the properties of a key from the tokens before it, which belong to a frame. -/
def takeKeyProperties : Frame → List Token × Frame
  | .document d =>
    let (kept, properties) := Token.splitKeyProperties d.start
    (properties, .document { d with start := kept })
  | .node (.mapping b) => match b.parts with
    | it :: before =>
      match it.sep with
      | some sep =>
        let (kept, properties) := Token.splitKeyProperties sep
        (properties, .node (.mapping { b with parts := { it with sep := some kept } :: before }))
      | none =>
        let (kept, properties) := Token.splitKeyProperties it.start
        (properties, .node (.mapping { b with parts := { it with start := kept } :: before }))
    | [] => ([], .node (.mapping b))
  | .node (.sequence b) => match b.parts with
    | it :: before =>
      let (kept, properties) := Token.splitKeyProperties it.start
      (properties, .node (.sequence { b with parts := { it with start := kept } :: before }))
    | [] => ([], .node (.sequence b))
  | frame => ([], frame)

/-- Takes the properties of a key from the frames on a stack. -/
def takeProperties (stack : List Frame) : List Token × List Frame :=
  match stack with
  | frame :: below =>
    let (properties, frame) := takeKeyProperties frame
    (properties, frame :: below)
  | [] => ([], [])

/-- Makes a key of the node on top: a colon has come after it. -/
def makeKey (g : Growth) (t : Token) (key : Tree) (offset indent : Nat) (between : List Token) :
    Growth :=
  let (start, below) := takeProperties (g.stack.drop 1)
  let part : Part Tree := { start, key := some key, sep := some (between ++ [t]) }
  { g with onKeyLine := true, stack := .node (.mapping ⟨offset, indent, [part]⟩) :: below }

/-- Starts a node with a token, if any starts with it. -/
def startNode? (g : Growth) (t : Token) : Option Growth :=
  match t.kind with
  | .alias | .plain | .single | .double => some (g.push (.leaf t none))
  | .blockHeader => some (g.push (.block t [] t.indent []))
  | .opening _ => some (g.push (.flow { opening := t, indent := t.indent }))
  | .dash => some (g.push (.sequence ⟨t.offset, t.indent, [{ start := [t] }]⟩))
  | .question =>
    let (start, stack) := takeProperties g.stack
    let part : Part Tree := { start := start ++ [t], isExplicit := true }
    some ({ g with onKeyLine := true, stack }.push (.mapping ⟨t.offset, t.indent, [part]⟩))
  | .colon =>
    let (start, stack) := takeProperties g.stack
    some ({ g with onKeyLine := true, stack }.push
      (.mapping ⟨t.offset, t.indent, [{ start, sep := some [t] }]⟩))
  | _ => none

end Growth

end ResourceLocator.Yaml
