import ResourceLocator.Text.Pieces

/-!
# Names of environment variables

A name in mixed case, with dots or with dashes becomes a segment of a variable name in four
passes: an underscore goes into every hump, each run of other characters than ASCII letters and
digits becomes one underscore, one underscore is taken from either end, and the letters become
capitals.

A dotted key gives a variable of the program itself: its segments, without empty ones, joined
by underscores.
-/

namespace ResourceLocator.EnvName

/-- Whether a character is an ASCII letter or digit. -/
def isAlphanumeric (c : Char) : Bool := c.isAlphanum

/-- Whether a hump rises between two characters: a small letter or a digit, then a capital. -/
def isHump (a b : Char) : Bool := (a.isLower || a.isDigit) && b.isUpper

/-- Puts an underscore into every hump. -/
def separateHumps : List Char → List Char
  | a :: b :: rest =>
    if isHump a b then a :: '_' :: separateHumps (b :: rest) else a :: separateHumps (b :: rest)
  | cs => cs

/-- Makes each run of characters that are neither letters nor digits one underscore;
`isInRun` says whether such a run has begun. -/
def collapseFrom (isInRun : Bool) : List Char → List Char
  | [] => []
  | c :: rest =>
    if isAlphanumeric c then c :: collapseFrom false rest
    else if isInRun then collapseFrom true rest
    else '_' :: collapseFrom true rest

/-- Takes one underscore from the start. -/
def stripStart : List Char → List Char
  | '_' :: rest => rest
  | cs => cs

/-- Takes one underscore from either end. -/
def stripEnds (cs : List Char) : List Char :=
  (stripStart (stripStart cs).reverse).reverse

/-- A name as a segment of a variable name, on characters. -/
def segmentChars (cs : List Char) : List Char :=
  (stripEnds (collapseFrom false (separateHumps cs))).map Char.toUpper

/-- A name as a segment of a variable name. -/
def segment (name : String) : String :=
  String.ofList (segmentChars name.toList)

/-- The variable that overrides a dotted key of the configuration. -/
def ofKey (key : String) : String :=
  let segments := (Text.split (· == '.') key).map segment
  "RELOC_" ++ String.intercalate "_" (segments.filter (· ≠ ""))

/-- Whether a name is a well-formed variable name: capitals, digits and underscores, and no
digit at the start. -/
def isWellFormed (name : String) : Bool :=
  match name.toList with
  | [] => false
  | c :: cs => (c.isUpper || c == '_') && cs.all fun c ↦ c.isUpper || c.isDigit || c == '_'

end ResourceLocator.EnvName
