import ResourceLocator.Yaml.Fault
import ResourceLocator.Yaml.Tree

/-!
# What stands before and after a node

The tokens before a node are its *preamble*: its anchor and its tag, the mark that it needs where
it stands, and blanks, line ends and comments among them. The tokens after it on its line are its
*ending*, which holds blanks, line ends and comments only.

A property needs a blank after it, a comment needs one before it, and tabs do not count as
indentation.
-/

namespace ResourceLocator.Yaml

/-- What follows a preamble. -/
inductive Follower where
  /-- Nothing. -/
  | nothing
  /-- A blank, a line end, a comma, or a scalar without characters. -/
  | gap
  /-- A flow collection. -/
  | flow
  /-- A block collection. -/
  | block
  /-- Anything else. -/
  | other
  deriving DecidableEq, Repr

namespace Follower

/-- A tree as what follows. -/
def ofTree : Tree → Follower
  | .leaf t _ => if t.kind = .plain && t.text.isEmpty then .gap else .other
  | .flow _ => .flow
  | .mapping _ | .sequence _ => .block
  | .block .. | .fault => .other

/-- A token as what follows. -/
def ofToken (t : Token) : Follower :=
  match t.kind with
  | .space | .newline | .comma => .gap
  | _ => .other

/-- A tree, or without it the first of the tokens after it, as what follows. -/
def of (tree? : Option Tree) (after : Option (List Token)) : Follower :=
  match tree? with
  | some tree => ofTree tree
  | none => (((after.getD []).head?).map ofToken).getD .nothing

end Follower

/-- Where a preamble stands. -/
structure Setting where
  /-- Whether it is inside a flow collection. -/
  inFlow : Bool := false
  /-- The mark that may be in it. -/
  mark : LexemeKind
  /-- What follows it. -/
  follower : Follower
  /-- Where it starts. -/
  offset : Nat
  /-- The indentation of the collection around it. -/
  indent : Nat
  /-- Whether it starts a line. -/
  startsLine : Bool

/-- A preamble. -/
structure Preamble where
  /-- The comma in it. -/
  comma? : Option Token := none
  /-- The mark in it. -/
  mark? : Option Token := none
  /-- Whether a blank line stands before its comment. -/
  isSpaced : Bool := false
  /-- The lines of its comment. -/
  comment : List Char := []
  /-- Whether a line ends in it. -/
  hasLineEnd : Bool := false
  /-- The anchor of the node. -/
  anchor? : Option Token := none
  /-- The tag of the node. -/
  tag? : Option Token := none
  /-- The last line end after a property. -/
  lineEnd? : Option Token := none
  /-- Where the properties start, or where it ends if there are none. -/
  start : Nat
  /-- Where it ends. -/
  stop : Nat

namespace Preamble

/-- Whether the node has no properties. -/
def isBare (p : Preamble) : Bool := p.anchor?.isNone && p.tag?.isNone

/-- The text of a comment. -/
def commentText (t : Token) : List Char :=
  if t.text.length ≤ 1 then [' '] else t.text.drop 1

/-- A preamble as far as it has been read. -/
structure Progress where
  /-- What has been found. -/
  found : Preamble
  /-- Where the first property starts. -/
  start? : Option Nat := none
  /-- Whether the line has nothing but blanks, and marks after which a line may start. -/
  atLineStart : Bool
  /-- Whether a comment may follow. -/
  hasSpace : Bool
  /-- Whether a blank has to follow. -/
  needsSpace : Bool := false
  /-- A tab that has not been judged. -/
  tab? : Option Token := none
  /-- The line ends after the last line of the comment. -/
  gap : List Char := []

/-- What has been read, after a token that is neither a blank nor a comment. -/
def Progress.onward (s : Progress) (found : Preamble) : Progress :=
  { s with found, atLineStart := false, hasSpace := false }

/-- What has been read, after a property. -/
def Progress.onProperty (s : Progress) (t : Token) (found : Preamble) : Progress :=
  { s.onward found with needsSpace := true, start? := s.start? <|> some t.offset }

/-- Reads a line end. It belongs to the comment if that has come, and makes a blank line before it
if the line had nothing; what stands between the mark of an item and the item does not count. -/
def onLineEnd (setting : Setting) (s : Progress) (t : Token) : Progress :=
  let p := s.found
  let lineEnd? := if p.isBare then p.lineEnd? else some t
  let p := { p with hasLineEnd := true, lineEnd? }
  let p :=
    if !s.atLineStart then p
    else if !p.comment.isEmpty then { p with comment := p.comment ++ t.text }
    else if p.mark?.isSome && setting.mark = .dash then p
    else { p with isSpaced := true }
  let gap := if s.atLineStart then s.gap else s.gap ++ t.text
  { s with found := p, atLineStart := true, hasSpace := true, gap }

/-- Reads a token of a preamble. -/
def step (setting : Setting) (s : Progress) (t : Token) : Except Fault Progress := do
  let p := s.found
  if s.needsSpace && Follower.ofToken t ≠ .gap then throw .propertyNotApart
  if s.tab?.isSome && s.atLineStart && t.kind ≠ .comment && t.kind ≠ .newline then throw .tab
  let s := { s with needsSpace := false, tab? := none }
  if t.kind = setting.mark then
    if !p.isBare || p.mark?.isSome then throw .unexpected
    let goesOn := setting.mark = .dash || setting.mark = .question
    return { s.onward { p with mark? := some t } with atLineStart := goesOn }
  match t.kind with
  | .space =>
    let isJudged := !setting.inFlow &&
      !(setting.mark = .documentStart && setting.follower = .flow) && t.text.contains '\t'
    return { s with hasSpace := true, tab? := if isJudged then some t else none }
  | .comment =>
    if !s.hasSpace then throw .commentNotApart
    let text := commentText t
    let comment := if p.comment.isEmpty then text else p.comment ++ s.gap ++ text
    return { s with found := { p with comment }, gap := [], atLineStart := false }
  | .newline => return onLineEnd setting s t
  | .anchor =>
    if p.anchor?.isSome then throw .repeatedProperty
    return s.onProperty t { p with anchor? := some t }
  | .tag =>
    if p.tag?.isSome then throw .repeatedProperty
    return s.onProperty t { p with tag? := some t }
  | .comma =>
    if !setting.inFlow || p.comma?.isSome then throw .unexpected
    return s.onward { p with comma? := some t }
  | _ => throw .unexpected

/-- Reads a preamble. -/
def read (setting : Setting) (tokens : List Token) : Except Fault Preamble := do
  let stop := (tokens.getLast?.map Token.stop).getD setting.offset
  let first : Progress :=
    { found := { start := stop, stop }
      atLineStart := setting.startsLine
      hasSpace := setting.startsLine }
  let s ← tokens.foldlM (step setting) first
  if s.needsSpace && setting.follower ≠ .nothing && setting.follower ≠ .gap then
    throw .propertyNotApart
  if let some tab := s.tab? then
    if (s.atLineStart && tab.indent ≤ setting.indent) || setting.follower = .block then throw .tab
  return { s.found with start := s.start?.getD stop }

end Preamble

/-- Reads the ending of something that stops at `offset`, and gives its comment and where it
stops. -/
def readEnding (asksForSpace : Bool) (offset : Nat) (tokens : List Token) :
    Except Fault (List Char × Nat) := do
  let step := fun ((comment, gap, hasSpace) : List Char × List Char × Bool) (t : Token) ↦
    match t.kind with
    | .space => .ok (comment, gap, true)
    | .comment =>
      let text := Preamble.commentText t
      if asksForSpace && !hasSpace then .error .commentNotApart
      else if comment.isEmpty then .ok (text, [], hasSpace)
      else .ok (comment ++ gap ++ text, [], hasSpace)
    | .newline => .ok (comment, if comment.isEmpty then gap else gap ++ t.text, true)
    | _ => .error Fault.unexpected
  let (comment, _, _) ← tokens.foldlM step ([], [], false)
  return (comment, (tokens.getLast?.map Token.stop).getD offset)

end ResourceLocator.Yaml
