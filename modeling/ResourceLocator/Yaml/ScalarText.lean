import ResourceLocator.Value.Json
import ResourceLocator.Yaml.Extent
import ResourceLocator.Yaml.Fault

/-!
# The text of scalars

The lines of a plain or quoted scalar are *folded*: a line end becomes a space, and of several
line ends in a row all but the first are kept; blanks around line ends do not count. A block
scalar keeps its lines (`|`) or folds them (`>`), after the indentation of its first line with
content has been taken from each; its header says what becomes of the line ends at its end.
-/

namespace ResourceLocator.Yaml.ScalarText

/-- Whether a character is a space or a tab. -/
def isSpace (c : Char) : Bool := c == ' ' || c == '\t'

/-- A text without the spaces and tabs at its end. -/
def trimEnd (cs : List Char) : List Char := (cs.reverse.dropWhile isSpace).reverse

/-- A line without the carriage return at its end. -/
def dropReturn (line : List Char) : List Char :=
  if line.getLast? == some '\r' then line.dropLast else line

/-- Lines after the first, folded; `gap` is what a line with content is put after. -/
def foldRest (gap : Char) : List (List Char) → List Char
  | [] => []
  | [last] => gap :: last.dropWhile isSpace
  | line :: lines =>
    let text := trimEnd ((dropReturn line).dropWhile isSpace)
    if text.isEmpty then
      if gap == '\n' then '\n' :: foldRest gap lines else foldRest '\n' lines
    else gap :: text ++ foldRest ' ' lines

/-- A text with its lines folded. -/
def fold (cs : List Char) : List Char :=
  match Text.pieces (· == '\n') cs with
  | [] => []
  | [line] => line
  | first :: lines => trimEnd (dropReturn first) ++ foldRest ' ' lines

/-- The text of a plain scalar. -/
def plain (source : List Char) : Except Fault (List Char) :=
  if source.head?.any (",%|>@\x60\t".toList.contains ·) then throw .plainStart
  else return fold source

/-- The inside of a quoted scalar. -/
def inside (quote : Char) (source : List Char) : Except Fault (List Char) :=
  if source.length < 2 || source.getLast? ≠ some quote then throw .unclosedQuote
  else return source.dropLast.drop 1

/-- A text with each pair of single quotes made one. -/
def joinQuotes : List Char → List Char
  | '\'' :: '\'' :: rest => '\'' :: joinQuotes rest
  | c :: rest => c :: joinQuotes rest
  | [] => []

/-- The text of a scalar in single quotes. -/
def single (source : List Char) : Except Fault (List Char) := do
  return joinQuotes (fold (← inside '\'' source))

/-! ### Double quotes -/

/-- The code of an escape of one character. -/
def escapeCode? : Char → Option Nat
  | '0' => some 0
  | 'a' => some 7
  | 'b' => some 8
  | 'e' => some 0x1B
  | 'f' => some 0xC
  | 'n' => some 0xA
  | 'r' => some 0xD
  | 't' => some 9
  | 'v' => some 0xB
  | 'N' => some 0x85
  | '_' => some 0xA0
  | 'L' => some 0x2028
  | 'P' => some 0x2029
  | ' ' => some 0x20
  | '"' => some 0x22
  | '/' => some 0x2F
  | '\\' => some 0x5C
  | '\t' => some 9
  | _ => none

/-- How many hexadecimal digits an escape has. -/
def escapeLength? : Char → Option Nat
  | 'x' => some 2
  | 'u' => some 4
  | 'U' => some 8
  | _ => none

/-- The number of hexadecimal digits. -/
def hexNumber? (digits : List Char) : Option Nat :=
  digits.foldl (fun n? c ↦ match n?, Number.digitValue? c with
    | some n, some d => some (n * 16 + d)
    | _, _ => none) (some 0)

/-- The line ends and blanks after a line end: the number of further line ends, and the rest. -/
def skipLineEnds : List Char → Nat × List Char
  | '\n' :: rest =>
    let (n, rest) := skipLineEnds rest
    (n + 1, rest)
  | '\r' :: '\n' :: rest =>
    let (n, rest) := skipLineEnds rest
    (n + 1, rest)
  | c :: rest => if isSpace c then skipLineEnds rest else (0, c :: rest)
  | [] => (0, [])

/-- The codes of the inside of a scalar in double quotes. -/
def doubleCodes : Nat → List Char → Except Fault (List Nat)
  | _, [] => return []
  | 0, _ => throw .escape
  | fuel + 1, c :: rest => do
    if c == '\r' && rest.head? == some '\n' then doubleCodes fuel rest
    else if c == '\n' then
      let (more, rest) := skipLineEnds rest
      let folded := if more = 0 then [0x20] else List.replicate more 0xA
      return folded ++ (← doubleCodes fuel rest)
    else if isSpace c then
      let blanks := (c :: rest).takeWhile isSpace
      let rest := (c :: rest).drop blanks.length
      let more ← doubleCodes fuel rest
      return if startsWithLineEnd rest then more else blanks.map Char.toNat ++ more
    else if c == '\\' then
      match rest with
      -- The quote that closes an unfinished scalar is its last character.
      | [] => return [0x22]
      | '\n' :: rest => doubleCodes fuel (rest.dropWhile isSpace)
      | '\r' :: '\n' :: rest => doubleCodes fuel (rest.dropWhile isSpace)
      | e :: rest => match escapeCode? e, escapeLength? e with
        | some code, _ => return code :: (← doubleCodes fuel rest)
        | none, some length =>
          let digits := rest.take length
          match hexNumber? digits with
          | some code =>
            if digits.length = length && code ≤ 0x10FFFF then
              return code :: (← doubleCodes fuel (rest.drop length))
            else throw .escape
          | none => throw .escape
        | none, none => throw .escape
    else return c.toNat :: (← doubleCodes fuel rest)

/-- The characters of codes: the halves of a surrogate pair make one character, and a half alone
stands for U+FFFD. -/
def ofCodes : List Nat → List Char
  | high :: low :: rest =>
    if 0xD800 ≤ high && high < 0xDC00 && 0xDC00 ≤ low && low < 0xE000 then
      Char.ofNat (0x10000 + (high - 0xD800) * 0x400 + (low - 0xDC00)) :: ofCodes rest
    else (if 0xD800 ≤ high && high < 0xE000 then '\ufffd' else Char.ofNat high) ::
      ofCodes (low :: rest)
  | [code] => [if 0xD800 ≤ code && code < 0xE000 then '\ufffd' else Char.ofNat code]
  | [] => []

/-- The text of a scalar in double quotes. -/
def double (source : List Char) : Except Fault (List Char) := do
  let cs ← inside '"' source
  return ofCodes (← doubleCodes (cs.length + 1) cs)

/-! ### Block scalars -/

/-- What becomes of the line ends at the end of a block scalar. -/
inductive Chomping where
  /-- One is kept. -/
  | clip
  /-- None is kept. -/
  | strip
  /-- All are kept. -/
  | keep
  deriving DecidableEq, Repr

/-- The header of a block scalar. -/
structure Header where
  /-- Whether lines are folded. -/
  folds : Bool
  /-- The indentation of the lines, or zero to take it from the first line with content. -/
  indent : Nat
  /-- What becomes of the line ends at the end. -/
  chomping : Chomping
  deriving DecidableEq, Repr

/-- Reads the flags of a header: each kind at most once, in any order. -/
def readFlags : Header → List Char → Except Fault Header
  | h, [] => return h
  | h, c :: rest =>
    if h.chomping = .clip && (c == '-' || c == '+') then
      readFlags { h with chomping := if c == '-' then .strip else .keep } rest
    else if h.indent = 0 && '1' ≤ c && c ≤ '9' then
      readFlags { h with indent := c.toNat - '0'.toNat } rest
    else throw .blockHeader

/-- Reads a header. -/
def readHeader (source : List Char) : Except Fault Header :=
  readFlags ⟨source.head? == some '>', 0, .clip⟩ (source.drop 1)

/-- A line of a block scalar: the number of spaces that it starts with, and the rest. -/
structure Line where
  /-- The number of spaces. -/
  indent : Nat
  /-- The rest, without a carriage return at its end. -/
  content : List Char

/-- A line taken apart. -/
def Line.ofChars (cs : List Char) : Line :=
  let indent := indentation cs
  ⟨indent, dropReturn (cs.drop indent)⟩

/-- The indentation of the content of a block scalar, which may not be less than `least` unless
the header gives it. Blank lines before the content must not be indented further. -/
def contentIndent (header : Header) (least : Nat) (isRoot : Bool) :
    List Line → Except Fault Nat
  | [] => return least
  | line :: lines =>
    if line.content.isEmpty then
      contentIndent header (if header.indent = 0 then max least line.indent else least) isRoot
        lines
    else do
      if line.indent < least then throw .blockIndent
      let indent := if header.indent = 0 then line.indent else least
      if indent = 0 && !isRoot then throw .blockIndent
      return indent

/-- The spaces of a line beyond an indentation. -/
def Line.extra (indent : Nat) (line : Line) : List Char :=
  List.replicate (line.indent - indent) ' '

/-- Lines that are kept. -/
def keepLines (indent : Nat) (lines : List Line) : List Char :=
  ['\n'].intercalate (lines.map fun line ↦ line.extra indent ++ line.content)

/-- Lines that are folded. `gap` is what the next line is put after, and `isIndented` says
whether the line before was indented further, which keeps the line ends around it. -/
def foldLines (indent : Nat) (gap : List Char) (isIndented : Bool) : List Line → List Char
  | [] => []
  | line :: lines =>
    if indent < line.indent || line.content.head? == some '\t' then
      let gap := if gap == [' '] then ['\n']
        else if !isIndented && gap == ['\n'] then ['\n', '\n']
        else gap
      gap ++ line.extra indent ++ line.content ++ foldLines indent ['\n'] true lines
    else if line.content.isEmpty then
      if gap == ['\n'] then '\n' :: foldLines indent gap isIndented lines
      else foldLines indent ['\n'] isIndented lines
    else gap ++ line.content ++ foldLines indent [' '] false lines

/-- The text of a block scalar inside a collection that is indented by `parent`. -/
def block (header source : List Char) (parent : Nat) (isRoot : Bool) :
    Except Fault (List Char) := do
  let header ← readHeader header
  let lines := if source.isEmpty then [] else
    (Text.pieces (· == '\n') source).map Line.ofChars
  let blankEnd := lines.reverse.takeWhile (·.content.isEmpty)
  if blankEnd.length = lines.length then
    return if header.chomping = .keep && !lines.isEmpty then
      List.replicate (max 1 (lines.length - 1)) '\n' else []
  let indent ← contentIndent header (parent + header.indent) isRoot lines
  -- Blank lines at the end that are indented further belong to the content.
  let ending := (blankEnd.takeWhile fun line ↦ !(indent < line.indent)).reverse
  let content := lines.take (lines.length - ending.length)
  let leading := content.takeWhile (·.content.isEmpty)
  let body := content.drop leading.length
  if body.any fun line ↦ !line.content.isEmpty && line.indent < indent then
    throw .blockIndent
  let start := leading.flatMap fun line ↦ line.extra indent ++ ['\n']
  let text := start ++ (if header.folds then foldLines indent [] false body
    else keepLines indent body)
  match header.chomping with
  | .strip => return text
  | .clip => return text ++ ['\n']
  | .keep =>
    let text := text ++ ending.flatMap fun line ↦ '\n' :: line.extra indent
    return if text.getLast? == some '\n' then text else text ++ ['\n']

end ResourceLocator.Yaml.ScalarText
