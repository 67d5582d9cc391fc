/-!
# Writing comments

Each line of a comment has a mark of its own. A comment of one line may stand after what it is
about; longer ones have lines of their own.
-/

namespace ResourceLocator.Yaml.Writing

/-- Whether a character ends a line of a comment. -/
def endsLine (c : Char) : Bool := c == '\n' || c == '\r' || c == '\u2028' || c == '\u2029'

/-- Whether a text is at the end of a line. -/
def atLineEnd (cs : List Char) : Bool :=
  match cs with
  | [] => true
  | c :: _ => endsLine c

/-- The lines of a comment with their marks; empty lines have none. -/
def markLines : Bool → List Char → List Char
  | _, [] => []
  | atStart, c :: rest =>
    if endsLine c then c :: markLines true rest
    else if !atStart then c :: markLines false rest
    else if c == ' ' && atLineEnd rest then '#' :: markLines false rest
    else '#' :: c :: markLines false rest

/-- The lines of a comment with an indentation; blank lines have none. -/
def indentLines (indent : Nat) : Bool → List Char → List Char
  | _, [] => []
  | atStart, c :: rest =>
    let isBlank := atLineEnd ((c :: rest).dropWhile (· == ' '))
    let start := if atStart && !isBlank then List.replicate indent ' ' else []
    start ++ c :: indentLines indent (endsLine c) rest

/-- A comment on lines of its own. -/
def commentLines (indent : Nat) (comment : List Char) : List Char :=
  let marked := markLines true comment
  if !marked.isEmpty && marked.all (· == '\n') then marked.drop 1
  else indentLines indent true marked

/-- A comment after a text on the same line, or on lines of its own if it has several. -/
def commentAfter (text : List Char) (indent : Nat) (comment : List Char) : List Char :=
  let marked := markLines true comment
  if comment.isEmpty then []
  else if text.getLast? == some '\n' then commentLines indent comment
  else if marked.contains '\n' then '\n' :: commentLines indent comment
  else if text.getLast? == some ' ' then marked
  else ' ' :: marked

end ResourceLocator.Yaml.Writing
