/-!
# Flags

The program and its commands take flags. A flag has a long spelling and may have a short one; a
flag with a value takes it from what follows.
-/

namespace ResourceLocator.CommandLine

/-- A flag. -/
inductive Flag where
  /-- Asks for the version. -/
  | version
  /-- Logs and shows everything. -/
  | verbose
  /-- Adds a directory of the user layer. -/
  | includeDir
  /-- Gives the path of the executable. -/
  | executable
  /-- Shows the layers of a search path. -/
  | layers
  /-- Asks for one extension. -/
  | extension
  /-- Asks for help. -/
  | help
  deriving DecidableEq, Repr

namespace Flag

/-- The letter of the short spelling. -/
def letter? : Flag → Option Char
  | .version => some 'V'
  | .includeDir => some 'I'
  | .help => some 'h'
  | _ => none

/-- The long spelling. -/
def long : Flag → String
  | .version => "--version"
  | .verbose => "--verbose"
  | .includeDir => "--include"
  | .executable => "--exe"
  | .layers => "--layers"
  | .extension => "--ext"
  | .help => "--help"

/-- What stands for the value in usage texts, for a flag with a value. -/
def valueName? : Flag → Option String
  | .includeDir => some "dir"
  | .executable => some "path"
  | .extension => some "extension"
  | _ => none

/-- Whether a flag takes a value. -/
def takesValue (flag : Flag) : Bool := flag.valueName?.isSome

/-- What a flag does. -/
def description : Flag → String
  | .version => "output the version number"
  | .verbose => "Verbose output (debug log level, log lines on stderr)"
  | .includeDir =>
    "Add a user include directory (repeatable, highest priority) (default: [])"
  | .executable => "Use this absolute path as the running executable"
  | .layers => "Prefix each directory with its layer (user, bundled, system, extra)"
  | .extension => "Only files with this extension (e.g. .m4)"
  | .help => "display help for command"

/-- The spellings of a flag, with its value. -/
def usage (flag : Flag) : String :=
  let short := match flag.letter? with
    | some c => String.ofList ['-', c] ++ ", "
    | none => ""
  let value := match flag.valueName? with
    | some name => " <" ++ name ++ ">"
    | none => ""
  short ++ flag.long ++ value

/-- The flags of the program, but for the one that asks for help. -/
def ofProgram : List Flag := [.version, .verbose, .includeDir, .executable]

/-- Whether an argument is a spelling of a flag. -/
def isSpelling (flag : Flag) (arg : String) : Bool :=
  arg == flag.long || flag.letter?.any fun c ↦ arg == String.ofList ['-', c]

/-- The flag of a spelling, among some. -/
def find? (flags : List Flag) (arg : String) : Option Flag :=
  flags.find? (·.isSpelling arg)

/-- The flag of a letter, among some. -/
def ofLetter? (flags : List Flag) (c : Char) : Option Flag :=
  flags.find? (·.letter? == some c)

end Flag

end ResourceLocator.CommandLine
