/-!
# Lexemes

A text is a list of lexemes: the marks, properties, scalars, blanks, line ends and comments that it
is written with, in order and with nothing left out. Two kinds of lexemes have no characters: the
start of the content of a document, and the break of a flow collection whose lines are indented
too little.
-/

namespace ResourceLocator.Yaml

/-- What a lexeme is. -/
inductive LexemeKind where
  /-- A byte order mark. -/
  | byteOrderMark
  /-- The start of the content of a document. -/
  | content
  /-- The break of a flow collection. -/
  | flowBreak
  /-- `---`. -/
  | documentStart
  /-- `...`. -/
  | documentEnd
  /-- A line end. -/
  | newline
  /-- `-`, the mark of an item. -/
  | dash
  /-- `?`, the mark of a key. -/
  | question
  /-- `:`, the mark of a value. -/
  | colon
  /-- `,`. -/
  | comma
  /-- The opening bracket of a flow collection. -/
  | opening (isMapping : Bool)
  /-- The closing bracket of a flow collection. -/
  | closing (isMapping : Bool)
  /-- Spaces and tabs. -/
  | space
  /-- A comment. -/
  | comment
  /-- A directive. -/
  | directive
  /-- An alias. -/
  | alias
  /-- An anchor. -/
  | anchor
  /-- A tag. -/
  | tag
  /-- A plain scalar, or the lines of a block scalar. -/
  | plain
  /-- A scalar in single quotes. -/
  | single
  /-- A scalar in double quotes. -/
  | double
  /-- The header of a block scalar. -/
  | blockHeader
  /-- Anything else. -/
  | unknown
  deriving DecidableEq, Repr

/-- A lexeme. -/
structure Lexeme where
  /-- What it is. -/
  kind : LexemeKind
  /-- How it is written. -/
  text : List Char
  deriving DecidableEq, Repr

namespace LexemeKind

/-- The kind of the lexemes that start with a character, of those that are not one character or
marker only. -/
def ofFirst : Char → LexemeKind
  | ' ' | '\t' => .space
  | '#' => .comment
  | '%' => .directive
  | '*' => .alias
  | '&' => .anchor
  | '!' => .tag
  | '\'' => .single
  | '"' => .double
  | '|' | '>' => .blockHeader
  | _ => .unknown

/-- The kind of a stretch of characters that has been taken for one lexeme. -/
def ofText (text : List Char) : LexemeKind :=
  match text with
  | [] => .newline
  | ['\n'] => .newline
  | ['\r', '\n'] => .newline
  | ['-', '-', '-'] => .documentStart
  | ['.', '.', '.'] => .documentEnd
  | ['\ufeff'] => .byteOrderMark
  | ['-'] => .dash
  | ['?'] => .question
  | [':'] => .colon
  | [','] => .comma
  | ['\x7b'] => .opening true
  | ['['] => .opening false
  | ['\x7d'] => .closing true
  | [']'] => .closing false
  | c :: _ => ofFirst c

/-- Whether lexemes of a kind are blanks, line ends or comments. -/
def isGap : LexemeKind → Bool
  | .space | .newline | .comment => true
  | _ => false

/-- Whether lexemes of a kind are scalars or aliases, block scalars apart. -/
def isLeaf : LexemeKind → Bool
  | .alias | .plain | .single | .double => true
  | _ => false

/-- Whether lexemes of a kind are properties of nodes. -/
def isProperty : LexemeKind → Bool
  | .anchor | .tag => true
  | _ => false

end LexemeKind

end ResourceLocator.Yaml
