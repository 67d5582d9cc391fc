import ResourceLocator.Value.Json
import ResourceLocator.Yaml.Folding
import ResourceLocator.Yaml.Node

/-!
# Writing texts as scalars

A text is written without quotes where it would be read as the same text again. Inside a flow
collection that excludes brackets and commas; line ends and blanks at the ends ask for quotes
everywhere. Quotes are double ones, unless the text holds those and no single ones.

A line end is written as two, and the lines after it are indented. A key without a mark stays on
one line.
-/

namespace ResourceLocator.Yaml.Quoting

/-- Where a scalar inside a flow collection is written. -/
structure Spot where
  /-- The indentation of its lines after the first. -/
  indent : Nat
  /-- How much of its first line is taken, where that is known. -/
  start? : Option Nat := none
  /-- Whether it is a key without a mark. -/
  isKey : Bool := false

/-- A text with its long lines broken, unless it is a key without a mark. -/
def Spot.fold (spot : Spot) (inWords : Bool) (text : List Char) : List Char :=
  if spot.isKey then text else Folding.fold inWords spot.indent spot.start? text

/-- A text with one more line end and the indentation of a line after each stretch of line
ends. -/
def spreadLines (indent : Nat) : List Char → List Char
  | [] => []
  | '\n' :: rest =>
    if rest.head? == some '\n' then '\n' :: spreadLines indent rest
    else '\n' :: '\n' :: List.replicate indent ' ' ++ spreadLines indent rest
  | c :: rest => c :: spreadLines indent rest

/-- Whether two characters that `p` holds of stand next to each other. -/
def hasPair (p : Char → Char → Bool) (cs : List Char) : Bool :=
  (cs.zip (cs.drop 1)).any fun (a, b) ↦ p a b

/-- Whether a text cannot stand without quotes, wherever it is. -/
def needsQuotes (cs : List Char) : Bool :=
  let isBlank := ScalarText.isSpace
  cs.head?.any ("\n\t ,[]\x7b\x7d#&*!|>'\"%@\x60".toList.contains ·) ||
    cs.getLast?.any ("\n\t :-".toList.contains ·) || cs == ['?'] ||
    (cs.head? == some '?' || cs.head? == some '-') && (cs[1]?).any isBlank ||
    hasPair (fun a b ↦ ((a == '\n' || a == ':') && isBlank b) || (isBlank a && b == '\n') ||
      ((isBlank a || a == '\n') && b == '#')) cs

/-- Whether a character can only stand in double quotes. -/
def isControl (c : Char) : Bool :=
  let n := c.toNat
  n ≤ 8 || (0xB ≤ n && n ≤ 0x1F) || (0x7F ≤ n && n ≤ 0x9F)

/-! ### Quotes -/

/-- An escape of a character by its four digits, as short as it can be. -/
def shortEscape (digits : List Char) : List Char :=
  match digits with
  | ['0', '0', '0', '0'] => ['\\', '0']
  | ['0', '0', '0', '7'] => ['\\', 'a']
  | ['0', '0', '0', 'b'] => ['\\', 'v']
  | ['0', '0', '1', 'b'] => ['\\', 'e']
  | '0' :: '0' :: rest => '\\' :: 'x' :: rest
  | rest => '\\' :: 'u' :: rest

/-- The inside of a text in double quotes, of which the escapes are given. If `inLines` holds, a
line end becomes one in the scalar, but for the last one; `isOpen` says that the line end before
has become one. -/
def doubleInside (inLines : Bool) (indent : Nat) (isOpen : Bool) : List Char → List Char
  | [] => []
  | '\\' :: 'n' :: rest =>
    let goesOn := inLines && !rest.isEmpty
    let before := if isOpen then ['\n'] else ['\n', '\n']
    let isNext := goesOn && ['\\', 'n'].isPrefixOf rest && rest.length ≠ 2
    let indentation := if isNext then [] else
      List.replicate indent ' ' ++ if rest.head? == some ' ' then ['\\'] else []
    if goesOn then before ++ indentation ++ doubleInside inLines indent isNext rest
    else '\\' :: 'n' :: doubleInside inLines indent false rest
  | '\\' :: 'u' :: a :: b :: c :: d :: rest =>
    shortEscape [a, b, c, d] ++ doubleInside inLines indent false rest
  | '\\' :: c :: rest => '\\' :: c :: doubleInside inLines indent false rest
  | c :: rest =>
    -- A space before a line end would not be read.
    let space := if c == ' ' && ['\\', 'n'].isPrefixOf rest then ['\\', ' '] else [c]
    space ++ doubleInside inLines indent false rest

/-- How many units a text in quotes has at least that goes over several lines. -/
def leastMultiline : Nat := 40

/-- A text in double quotes. -/
def double (spot : Spot) (text : List Char) : List Char :=
  let escaped := text.flatMap Json.escapeChar
  let inLines := !spot.isKey && leastMultiline ≤ Text.unitCount escaped + 2
  spot.fold true ('"' :: doubleInside inLines spot.indent false escaped ++ ['"'])

/-- A text in single quotes, if it can stand in them. -/
def single (spot : Spot) (text : List Char) : List Char :=
  let isBlank := ScalarText.isSpace
  if (spot.isKey && text.contains '\n') ||
      hasPair (fun a b ↦ (isBlank a && b == '\n') || (a == '\n' && isBlank b)) text then
    double spot text
  else
    let doubled := text.flatMap fun c ↦ if c == '\'' then ['\'', '\''] else [c]
    spot.fold false ('\'' :: spreadLines spot.indent doubled ++ ['\''])

/-- A text in quotes. -/
def quoted (spot : Spot) (text : List Char) : List Char :=
  if text.contains '"' && !text.contains '\'' then single spot text else double spot text

/-! ### Texts -/

/-- A text without quotes, if it can stand without them. `isTaken` says which texts would be read
as something else. -/
def plain (isTaken : List Char → Bool) (spot : Spot) (text : List Char) : List Char :=
  if (spot.isKey && text.contains '\n') || text.any ("[]\x7b\x7d,".toList.contains ·) ||
      needsQuotes text then quoted spot text
  else
    let spread := spreadLines spot.indent text
    if isTaken spread then quoted spot text else spot.fold false spread

/-- A text in the style that it has, as far as it can be. -/
def write (isTaken : List Char → Bool) (spot : Spot) (style : Style) (text : List Char) :
    List Char :=
  if text.any isControl then double spot text
  else match style with
    | .plain => plain isTaken spot text
    | .single => single spot text
    | .double => double spot text
    | .block => quoted spot text

end ResourceLocator.Yaml.Quoting
