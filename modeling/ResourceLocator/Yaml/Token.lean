import ResourceLocator.Text.Units
import ResourceLocator.Yaml.Lexeme

/-!
# Tokens

A token is a lexeme in its place: how many units of the text come before it, and how its line is
indented. The marks `-`, `?` and `:` at the start of a line, and the spaces after them, count as
indentation of what follows.
-/

namespace ResourceLocator.Yaml

/-- A token. -/
structure Token where
  /-- What it is. -/
  kind : LexemeKind
  /-- How it is written. -/
  text : List Char
  /-- How many units of the text come before it. -/
  offset : Nat
  /-- Its indentation. -/
  indent : Nat
  deriving DecidableEq, Repr

namespace Token

/-- How many units of the text come before the end of a token. -/
def stop (t : Token) : Nat := t.offset + Text.unitCount t.text

/-- Whether a list of tokens holds one of a kind. -/
def includes (kind : LexemeKind) (tokens : List Token) : Bool :=
  tokens.any fun t ↦ decide (t.kind = kind)

/-- Whether there are only blanks, line ends and comments in a list of tokens. -/
def areGaps (tokens : List Token) : Bool := tokens.all (·.kind.isGap)

/-- Whether a token is a mark or a line end, so that properties after it belong to what follows. -/
def isBarrier (t : Token) : Bool :=
  match t.kind with
  | .documentStart | .question | .colon | .dash | .newline => true
  | _ => false

/-- Parts the tokens in front of a key: those that stay in front of the collection around it, and
the properties of the key, which stand on its line. -/
def splitKeyProperties (tokens : List Token) : List Token × List Token :=
  let line := (tokens.reverse.takeWhile (!·.isBarrier)).reverse
  let properties := line.dropWhile fun t ↦ decide (t.kind = .space)
  (tokens.take (tokens.length - properties.length), properties)

end Token

end ResourceLocator.Yaml
