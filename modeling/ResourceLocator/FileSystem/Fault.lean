import ResourceLocator.Text.Units

/-!
# Faults of file system calls

A call on a file system fails for one of a few reasons. The message of a failed call gives the
code and the wording of the reason, the name of the call and the path as the caller gave it.

A path with a NUL character is refused before any file system is asked; the refusal quotes it.
-/

namespace ResourceLocator

/-- Why a walk or a call on a file system fails. -/
inductive Errno where
  /-- Nothing is there. -/
  | missing
  /-- Something on the way is no directory. -/
  | notDirectory
  /-- There are too many links on the way. -/
  | tooManyLinks
  /-- Something is locked. -/
  | denied
  /-- A name or the whole path is too long. -/
  | nameTooLong
  /-- A directory stands where a file should. -/
  | isDirectory
  /-- Something is there already. -/
  | occupied
  deriving DecidableEq, Repr

namespace Errno

/-- The code of a reason. -/
def code : Errno → String
  | .missing => "ENOENT"
  | .notDirectory => "ENOTDIR"
  | .tooManyLinks => "ELOOP"
  | .denied => "EACCES"
  | .nameTooLong => "ENAMETOOLONG"
  | .isDirectory => "EISDIR"
  | .occupied => "EEXIST"

/-- The wording of a reason. -/
def wording : Errno → String
  | .missing => "no such file or directory"
  | .notDirectory => "not a directory"
  | .tooManyLinks => "too many symbolic links encountered"
  | .denied => "permission denied"
  | .nameTooLong => "name too long"
  | .isDirectory => "illegal operation on a directory"
  | .occupied => "file already exists"

/-- Whether the reason is that nothing is there. -/
def isAbsence : Errno → Bool
  | .missing | .notDirectory => true
  | _ => false

end Errno

/-- A failed call. -/
structure CallFault where
  /-- Why it failed. -/
  errno : Errno
  /-- The name of the call. -/
  call : String
  /-- The path as the caller gave it; reading an open directory shows none. -/
  path : Option String
  deriving DecidableEq, Repr

/-- A failed call in words. -/
def CallFault.message (fault : CallFault) : String :=
  let shown := match fault.path with
    | some path => " '" ++ path ++ "'"
    | none => ""
  fault.errno.code ++ ": " ++ fault.errno.wording ++ ", " ++ fault.call ++ shown

namespace NulPath

/-- Two capital hexadecimal digits. -/
def hexPair (n : Nat) : List Char :=
  [(Nat.digitChar (n / 16 % 16)).toUpper, (Nat.digitChar (n % 16)).toUpper]

/-- A character of a quoted path. -/
def escapeChar (quote c : Char) : List Char :=
  let n := c.toNat
  if c = quote && c = '\'' then ['\\', '\'']
  else if c = '\\' then ['\\', '\\']
  else if c = '\n' then ['\\', 'n']
  else if c = '\t' then ['\\', 't']
  else if c = '\r' then ['\\', 'r']
  else if n = 8 then ['\\', 'b']
  else if n = 12 then ['\\', 'f']
  else if n < 0x20 || (0x7F ≤ n && n ≤ 0x9F) then '\\' :: 'x' :: hexPair n
  else [c]

/-- Whether a dollar sign stands before an opening brace. -/
def hasPlaceholder : List Char → Bool
  | '$' :: '\x7b' :: _ => true
  | _ :: rest => hasPlaceholder rest
  | [] => false

/-- The quote around a text: the first of the single, the double and the back quote that the
text does not hold. The back quote is none for a text with a placeholder. -/
def quoteFor (text : List Char) : Char :=
  if !text.contains '\'' then '\''
  else if !text.contains '"' then '"'
  else if !text.contains '\x60' && !hasPlaceholder text then '\x60'
  else '\''

/-- A text in quotes. -/
def quoted (text : List Char) : List Char :=
  let quote := quoteFor text
  quote :: text.flatMap (escapeChar quote) ++ [quote]

/-- The lines of a text, each with its line end. -/
def lines : List Char → List (List Char)
  | [] => []
  | '\n' :: rest => ['\n'] :: lines rest
  | c :: rest => match lines rest with
    | [] => [[c]]
    | line :: more => (c :: line) :: more

/-- How many units a text may have to be quoted as a whole. -/
def longestWhole : Nat := 76

/-- How many units of a quoted path are shown. -/
def longestShown : Nat := 128

/-- A path in quotes: a long one by its lines, one sum of texts to a line, and never more than the
start of it. -/
def inspect (path : String) : String :=
  let pieces := if (Text.units path).length ≤ longestWhole then [path.toList]
    else lines path.toList
  let shown := " +\n  ".toList.intercalate (pieces.map quoted)
  if longestShown < Text.unitCount shown then
    String.ofList (Text.takeUnits longestShown shown) ++ "..."
  else String.ofList shown

/-- The refusal of a path with a NUL character. -/
def message (path : String) : String :=
  "The argument 'path' must be a string, Uint8Array, or URL without null bytes. Received " ++
    inspect path

end NulPath

end ResourceLocator
