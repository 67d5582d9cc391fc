import ResourceLocator.Yaml.Extent
import ResourceLocator.Yaml.Lexeme

/-!
# From text to lexemes

The text is read from left to right in one of five modes. What has been read decides how far a
scalar reaches: inside a block collection its lines have to be indented further than the
collection, and inside a flow collection it ends where a character has a meaning of its own.

Nothing is refused here: what no document can hold becomes lexemes too, and is judged by where it
stands.
-/

namespace ResourceLocator.Yaml

/-- What is to be read next. -/
inductive Mode where
  /-- Directives, blank lines and comments between documents. -/
  | stream
  /-- A line of a document. -/
  | lineStart
  /-- What comes after the indentation of a line. -/
  | blockStart
  /-- Anything on a line. -/
  | content
  /-- The inside of a flow collection. -/
  | flow
  deriving DecidableEq, Repr

/-- A place in the text, with what has been read before it. -/
structure Cursor where
  /-- The text to be read. -/
  rest : List Char
  /-- The least indentation of further lines of a scalar. -/
  leastIndent : Nat := 0
  /-- The indentation of the line, marks at its start included. -/
  column : Nat := 0
  /-- How many flow collections are open. -/
  depth : Nat := 0
  /-- Whether a colon here is the mark of a value, whatever follows it. -/
  isAfterKey : Bool := false
  /-- The lexemes, the last one first. -/
  lexemes : List Lexeme := []

/-- A step of reading. -/
abbrev Scan := StateM Cursor

namespace Scan

/-- Adds a lexeme that the text starts with. -/
def emit (kind : LexemeKind) (text : List Char) : Scan Unit :=
  modify fun c ↦ { c with
    rest := c.rest.drop text.length, lexemes := ⟨kind, text⟩ :: c.lexemes }

/-- Adds a lexeme that the text starts with, unless it is empty. -/
def emitSome (kind : LexemeKind) (text : List Char) : Scan Unit :=
  if text.isEmpty then pure () else emit kind text

/-- Reads spaces, and tabs if they are allowed, and gives their number. -/
def readBlanks (allowsTabs : Bool) : Scan Nat := do
  let blanks := (← get).rest.takeWhile fun x ↦ x == ' ' || (allowsTabs && x == '\t')
  emitSome .space blanks
  return blanks.length

/-- Reads a line end, if there is one. -/
def readLineEnd : Scan Bool := do
  let lineEnd := match (← get).rest with
    | '\n' :: _ => ['\n']
    | '\r' :: '\n' :: _ => ['\r', '\n']
    | _ => []
  emitSome .newline lineEnd
  return !lineEnd.isEmpty

/-- The rest of the line. -/
def lineRest : Scan (List Char) := do
  let rest := (← get).rest
  let line := rest.takeWhile (· ≠ '\n')
  return if line.getLast? == some '\r' && line.length < rest.length then line.dropLast else line

/-- Reads the rest of the line as one lexeme. -/
def readLineRest : Scan Unit := do
  let line ← lineRest
  emitSome (.ofText line) line

/-- The mark of a character. -/
def markOf? : Char → Option LexemeKind
  | '-' => some .dash
  | '?' => some .question
  | ':' => some .colon
  | _ => none

/-- Whether a character can stand in a tag as it is. -/
def isTagChar (c : Char) : Bool :=
  c.isAlphanum || "-#;/?:@&=+$_.!~*'()".toList.contains c

/-- Whether a character is a hexadecimal digit. -/
def isHexDigit (c : Char) : Bool :=
  c.isDigit || ('a' ≤ c && c ≤ 'f') || ('A' ≤ c && c ≤ 'F')

/-- The rest of a tag after its first character. -/
def tagRest : List Char → List Char
  | '%' :: a :: b :: rest =>
    if isHexDigit a && isHexDigit b then '%' :: a :: b :: tagRest rest else []
  | c :: rest => if isTagChar c then c :: tagRest rest else []
  | [] => []

/-- A tag at the start of a text. -/
def tagExtent : List Char → List Char
  | '!' :: '<' :: rest =>
    let inner := rest.takeWhile fun c ↦ !(endsWord [c]) && c ≠ '>'
    let close : List Char := if (rest.drop inner.length).head? == some '>' then ['>'] else []
    '!' :: '<' :: inner ++ close
  | c :: rest => c :: tagRest rest
  | [] => []

/-- The name of an anchor or an alias at the start of a text. -/
def nameExtent (cs : List Char) : List Char :=
  cs.takeWhile fun c ↦ !(endsWord [c] || isFlowMark c)

/-- Reads a property or a mark and the blanks after it, if there is one. -/
def readIndicator : Scan Bool := do
  let c ← get
  let inFlow := 0 < c.depth
  match c.rest with
  | '!' :: _ => emit .tag (tagExtent c.rest)
  | '&' :: rest => emit .anchor ('&' :: nameExtent rest)
  | x :: rest => match markOf? x with
    | none => return false
    | some mark =>
      if !(endsWord rest || (inFlow && startsWithFlowMark rest)) then return false
      emit mark [x]
      modify fun d ↦
        if inFlow then { d with isAfterKey := false }
        else { d with leastIndent := d.column + 1 }
  | [] => return false
  let _ ← readBlanks true
  return true

/-- Reads properties and marks, and gives whether there is any. The first argument bounds their
number. -/
def readIndicators : Nat → Scan Bool
  | 0 => return false
  | fuel + 1 => do
    if !(← readIndicator) then return false
    let _ ← readIndicators fuel
    return true

/-- Reads a plain scalar, which may be empty. -/
def readPlain : Scan Unit := do
  let c ← get
  emit .plain (plainExtent (0 < c.depth) c.leastIndent c.rest).1

/-- Reads a quoted scalar. -/
def readQuoted : Scan Unit := do
  let c ← get
  let (source, _) := quotedExtent c.leastIndent c.rest
  emit (if c.rest.head? == some '"' then .double else .single) source

/-- Reads an alias. -/
def readAlias : Scan Unit := do
  emit .alias ('*' :: nameExtent ((← get).rest.drop 1))

/-- The indentation that the header of a block scalar asks for. -/
def indicatorOf? (flags : List Char) : Option Nat :=
  (flags.filter Char.isDigit).getLast?.map fun c ↦ c.toNat - '0'.toNat

/-- Reads a block scalar with its header. -/
def readBlock : Scan Unit := do
  let header := (← get).rest.takeWhile fun x ↦ !(endsWord [x] || x == '#')
  let flags := (header.drop 1).takeWhile fun x ↦ x == '+' || x == '-' || ('1' ≤ x && x ≤ '9')
  emit .blockHeader header
  let _ ← readBlanks true
  readLineRest
  let _ ← readLineEnd
  let c ← get
  let extent := blockExtent c.leastIndent (indicatorOf? flags) (flags.contains '+') c.rest
  emit .plain extent.source
  modify fun d ↦ { d with leastIndent := extent.leastIndent }

/-- A directive up to the comment on its line, which follows a blank. -/
def upToComment : List Char → List Char
  | ' ' :: '#' :: _ => []
  | '\t' :: '#' :: _ => []
  | c :: rest => c :: upToComment rest
  | [] => []

/-- Whether nothing is left on the line. -/
def atLineEnd : Scan Bool := do
  let rest := (← get).rest
  return rest.isEmpty || startsWithLineEnd rest

/-- Whether only blanks and a comment are left on the line. -/
def atBlankEnd : Scan Bool := do
  let rest := (← get).rest.dropWhile fun c ↦ c == ' ' || c == '\t'
  return rest.isEmpty || startsWithLineEnd rest || rest.head? == some '#'

/-- Reads between documents. -/
def stepStream : Scan Mode := do
  if (← get).rest.head? == some '\ufeff' then emit .byteOrderMark ['\ufeff']
  let isDirective := (← get).rest.head? == some '%'
  if isDirective then
    let directive := upToComment (← lineRest)
    emit .directive (directive.reverse.dropWhile fun c ↦ c == ' ' || c == '\t').reverse
  if isDirective || (← atBlankEnd) then
    let _ ← readBlanks true
    readLineRest
    let _ ← readLineEnd
    return .stream
  emit .content []
  return .lineStart

/-- Reads the start of a line of a document. -/
def stepLineStart : Scan Mode := do
  let rest := (← get).rest
  if startsWithMarker rest then
    let isStart := rest.head? == some '-'
    emit (if isStart then .documentStart else .documentEnd) (rest.take 3)
    modify fun c ↦ { c with column := 0, leastIndent := 0 }
    return if isStart then .content else .stream
  let n ← readBlanks false
  modify fun c ↦ { c with
    column := n
    leastIndent :=
      if n < c.leastIndent && !endsWord (c.rest.drop 1) then n else c.leastIndent }
  return .blockStart

/-- Reads a mark at the start of a line. -/
def stepBlockStart : Scan Mode := do
  match (← get).rest with
  | x :: rest => match markOf? x with
    | none => return .content
    | some mark =>
      if endsWord rest then
        emit mark [x]
        let n ← readBlanks true
        modify fun c ↦ { c with leastIndent := c.column + 1, column := c.column + 1 + n }
        return .blockStart
      else return .content
  | [] => return .content

/-- Reads one thing on a line. -/
def stepContent : Scan Mode := do
  let _ ← readBlanks true
  let _ ← readIndicators ((← get).rest.length + 1)
  if ← atLineEnd then
    let _ ← readLineEnd
    return .lineStart
  match (← get).rest with
  | '#' :: _ =>
    readLineRest
    let _ ← readLineEnd
    return .lineStart
  | x :: _ =>
    if x == '[' || x == '\x7b' then
      emit (.opening (x == '\x7b')) [x]
      modify fun c ↦ { c with isAfterKey := false, depth := 1 }
      return .flow
    if x == ']' || x == '\x7d' then
      emit (.closing (x == '\x7d')) [x]
      return .content
    if x == '*' then readAlias
    else if x == '\'' || x == '"' then readQuoted
    else if x == '|' || x == '>' then
      readBlock
      return .lineStart
    else readPlain
    return .content
  | [] => return .content

/-- Reads the line ends and blanks before the next thing in a flow collection, and gives the
indentation of its line if it is not the line before. -/
def readFlowGap : Nat → Option Nat → Scan (Option Nat)
  | 0, indent? => return indent?
  | fuel + 1, indent? => do
    if ← readLineEnd then
      let n ← readBlanks false
      modify fun c ↦ { c with column := n }
      let _ ← readBlanks true
      readFlowGap fuel (some n)
    else if 0 < (← readBlanks true) then readFlowGap fuel indent?
    else return indent?

/-- Whether a line with an indentation cannot go on with the open flow collections. The end of the
outermost collection may stand where the collection around it does. -/
def breaksFlow (c : Cursor) (indent : Nat) : Bool :=
  let isComment := c.rest.head? == some '#'
  let isClosing := c.rest.head? == some ']' || c.rest.head? == some '\x7d'
  ((indent < c.leastIndent && !isComment) || (indent = 0 && startsWithMarker c.rest)) &&
    !(indent + 1 = c.leastIndent && c.depth = 1 && isClosing)

/-- Reads commas, with the blanks after each. -/
def readCommas : Nat → Scan Unit
  | 0 => pure ()
  | fuel + 1 => do
    if (← get).rest.head? == some ',' then
      emit .comma [',']
      modify fun c ↦ { c with isAfterKey := false }
      let _ ← readBlanks true
      readCommas fuel

/-- Reads one thing in a flow collection. -/
def stepFlow : Scan Mode := do
  let length := (← get).rest.length + 1
  let indent? ← readFlowGap length none
  let c ← get
  if indent?.any (breaksFlow c) then
    modify fun d ↦ { d with depth := 0 }
    emit .flowBreak []
    return .lineStart
  readCommas length
  let _ ← readIndicators length
  if ← atLineEnd then return .flow
  let c ← get
  match c.rest with
  | '#' :: _ =>
    readLineRest
    return .flow
  | x :: rest =>
    if x == '[' || x == '\x7b' then
      emit (.opening (x == '\x7b')) [x]
      modify fun d ↦ { d with isAfterKey := false, depth := d.depth + 1 }
      return .flow
    if x == ']' || x == '\x7d' then
      emit (.closing (x == '\x7d')) [x]
      modify fun d ↦ { d with isAfterKey := true, depth := d.depth - 1 }
      return if c.depth ≤ 1 then .content else .flow
    if x == '*' then readAlias
    else if x == '\'' || x == '"' then
      readQuoted
      modify fun d ↦ { d with isAfterKey := true }
    else if x == ':' && (c.isAfterKey || endsWord rest || rest.head? == some ',') then
      emit .colon [':']
      modify fun d ↦ { d with isAfterKey := false }
      let _ ← readBlanks true
    else
      -- A comma after properties or marks stands after an empty scalar.
      readPlain
      modify fun d ↦ { d with isAfterKey := false }
    return .flow
  | [] => return .flow

/-- Reads the next thing in a mode. -/
def step : Mode → Scan Mode
  | .stream => stepStream
  | .lineStart => stepLineStart
  | .blockStart => stepBlockStart
  | .content => stepContent
  | .flow => stepFlow

/-- Reads to the end of the text. -/
def toEnd : Nat → Mode → Scan Unit
  | 0, _ => return ()
  | fuel + 1, mode => do
    if (← get).rest.isEmpty then return ()
    toEnd fuel (← step mode)

end Scan

/-- The lexemes of a text. -/
def scan (cs : List Char) : List Lexeme :=
  -- Each character is read at once or after at most three changes of the mode.
  let (_, c) := StateT.run (Scan.toEnd (4 * cs.length + 4) .stream) { rest := cs }
  c.lexemes.reverse

end ResourceLocator.Yaml
