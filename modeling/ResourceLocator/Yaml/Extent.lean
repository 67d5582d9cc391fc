import ResourceLocator.Text.Pieces

/-!
# The extent of scalars

A scalar may go over several lines. Its lines after the first have a least indentation; if that
is zero, a line with a document marker ends it. A blank line never ends a scalar.

Each function gives the scalar as it is written and the text after it.
-/

namespace ResourceLocator.Yaml

/-- Whether a text starts with a blank or a line end, or is over. -/
def endsWord : List Char → Bool
  | [] => true
  | c :: _ => c == ' ' || c == '\n' || c == '\r' || c == '\t'

/-- Whether a text starts with a line end. -/
def startsWithLineEnd : List Char → Bool
  | '\n' :: _ => true
  | '\r' :: '\n' :: _ => true
  | _ => false

/-- Whether a character has a meaning of its own in flow collections. -/
def isFlowMark (c : Char) : Bool :=
  c == ',' || c == '[' || c == ']' || c == '\x7b' || c == '\x7d'

/-- Whether a text starts with a character that has a meaning of its own in flow collections. -/
def startsWithFlowMark (cs : List Char) : Bool := cs.head?.any isFlowMark

/-- Whether a line starts with a marker of documents. -/
def startsWithMarker : List Char → Bool
  | '-' :: '-' :: '-' :: rest => endsWord rest
  | '.' :: '.' :: '.' :: rest => endsWord rest
  | _ => false

/-- Whether a scalar goes on in a line. -/
def continues (leastIndent : Nat) (line : List Char) : Bool :=
  if leastIndent = 0 then !startsWithMarker line
  else
    let spaces := line.takeWhile (· == ' ')
    startsWithLineEnd (line.drop spaces.length) || leastIndent ≤ spaces.length

/-! ### Plain scalars -/

/-- The extent of a plain scalar. `kept` is the scalar so far and `blank` what comes after it,
both backwards. -/
def plainFrom (inFlow : Bool) (leastIndent : Nat) (kept blank : List Char) :
    List Char → List Char × List Char
  | [] => (kept.reverse, blank.reverse)
  | c :: rest =>
    let isCut := rest.head? == some '#' || (inFlow && startsWithFlowMark rest)
    -- A carriage return alone is part of the scalar.
    let isBlank := endsWord [c] && !(c == '\r' && rest.head? ≠ some '\n')
    let isEnd := (c == ':' && (endsWord rest || (inFlow && startsWithFlowMark rest))) ||
      (inFlow && isFlowMark c) ||
      (isBlank && (isCut || (c == '\n' && !continues leastIndent rest)))
    if isEnd then (kept.reverse, blank.reverse ++ c :: rest)
    else if isBlank then plainFrom inFlow leastIndent kept (c :: blank) rest
    else if c == '\r' && isCut then ((c :: (blank ++ kept)).reverse, rest)
    else plainFrom inFlow leastIndent (c :: (blank ++ kept)) [] rest

/-- The extent of a plain scalar at the start of a text. -/
def plainExtent (inFlow : Bool) (leastIndent : Nat) (cs : List Char) : List Char × List Char :=
  plainFrom inFlow leastIndent [] [] cs

/-! ### Quoted scalars -/

/-- A text up to the single quote that closes it; two in a row do not. -/
def closeSingle : List Char → Option (List Char)
  | [] => none
  | '\'' :: '\'' :: rest => (closeSingle rest).map fun cs ↦ '\'' :: '\'' :: cs
  | '\'' :: _ => some ['\'']
  | c :: rest => (closeSingle rest).map (c :: ·)

/-- A text up to the double quote that closes it; one after a backslash does not. -/
def closeDouble : List Char → Option (List Char)
  | [] => none
  | '\\' :: c :: rest => (closeDouble rest).map fun cs ↦ '\\' :: c :: cs
  | '"' :: _ => some ['"']
  | c :: rest => (closeDouble rest).map (c :: ·)

/-- The first lines of `inside`, which `all` goes on from, up to the first that the scalar does
not go on in. -/
def goodLines (leastIndent : Nat) : List Char → List Char → List Char × List Char
  | c :: inside, _ :: all =>
    let isEnd := (c == '\n' && !continues leastIndent all) ||
      (c == '\r' && all.head? == some '\n' && !continues leastIndent (all.drop 1))
    if isEnd then ([], c :: all)
    else
      let (good, rest) := goodLines leastIndent inside all
      (c :: good, rest)
  | _, all => ([], all)

/-- The extent of a quoted scalar at the start of a text, with its quotes. A scalar that is not
closed takes all. -/
def quotedExtent (leastIndent : Nat) : List Char → List Char × List Char
  | [] => ([], [])
  | quote :: rest =>
    match (if quote == '\'' then closeSingle rest else closeDouble rest) with
    | none => (quote :: rest, [])
    | some inside =>
      let (good, rest) := goodLines leastIndent inside rest
      (quote :: good, rest)

/-! ### Block scalars -/

/-- Whether a line holds nothing but spaces; a carriage return at its end does not count. -/
def isBlankLine (line : List Char) : Bool :=
  match line.dropWhile (· == ' ') with
  | [] => true
  | ['\r'] => true
  | _ => false

/-- How many spaces a line starts with. -/
def indentation (line : List Char) : Nat := (line.takeWhile (· == ' ')).length

/-- Lines with a line end after each but, if they are the last of a text, the last. -/
def joinLines (isLast : Bool) : List (List Char) → List Char
  | [] => []
  | [line] => if isLast then line else line ++ ['\n']
  | line :: lines => line ++ '\n' :: joinLines isLast lines

/-- Lines without the blank ones at the end that have at most `indent` spaces; the first line
stays. -/
def dropBlankLines (indent : Nat) : List (List Char) → List (List Char)
  | [] => []
  | first :: rest =>
    first :: (rest.reverse.dropWhile fun l ↦ isBlankLine l && indentation l ≤ indent).reverse

/-- The extent of a block scalar. -/
structure BlockExtent where
  /-- The scalar as it is written, without its header. -/
  source : List Char
  /-- The text after it. -/
  rest : List Char
  /-- The least indentation of its lines. -/
  leastIndent : Nat

/-- The extent of a block scalar whose lines start a text. `indicator?` is the indentation that
its header asks for, and `keepsEnd` whether blank lines at its end belong to it. A line after it
whose indentation ends in a tab belongs to it up to its first other character; such a scalar is
at fault, and the tab is what shows it. -/
def blockExtent (leastIndent : Nat) (indicator? : Option Nat) (keepsEnd : Bool)
    (cs : List Char) : BlockExtent :=
  let lines := Text.pieces (· == '\n') cs
  let blanks := (lines.dropLast.takeWhile isBlankLine).length
  let indent := indentation ((lines[blanks]?).getD [])
  let hasLines := leastIndent ≤ indent
  let inner := if !hasLines then leastIndent else match indicator? with
    | none => indent
    | some n => n - 1 + (if leastIndent = 0 then 1 else leastIndent)
  -- All lines but the last have a line end, which a blank line needs to go on.
  let ended := lines.dropLast.map (· ++ ['\n']) ++ (lines.getLast?).toList
  let count :=
    if hasLines then blanks + ((ended.drop blanks).takeWhile (continues inner)).length
    else blanks
  let body := lines.take count
  let isLast := count == lines.length
  let whole := joinLines isLast body
  let rest := cs.drop whole.length
  if (rest.dropWhile (· == ' ')).head? == some '\t' then
    let more := rest.takeWhile fun c ↦ c == ' ' || c == '\t' || c == '\r' || c == '\n'
    ⟨whole ++ more, rest.drop more.length, inner⟩
  else
    let kept := if keepsEnd then body else dropBlankLines indent body
    let source := joinLines (isLast && kept.length == body.length) kept
    ⟨source, cs.drop source.length, inner⟩

end ResourceLocator.Yaml
