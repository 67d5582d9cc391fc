import ResourceLocator.CommandLine.Flag

/-!
# Commands

The program has six commands, and the word `help` that shows the usage of one of them. A
command may have flags of its own and takes at most one kind of argument.
-/

namespace ResourceLocator.CommandLine

/-- The name of the program. -/
def programName : String := "reloc"

/-- The version of the program. -/
def programVersion : String := "0.3.0"

/-- What the program does. -/
def programDescription : String := "Locate the bundled resources of a relocatable tool"

/-- A command. -/
inductive Command where
  /-- Shows the root of the resources. -/
  | root
  /-- Shows the search path. -/
  | path
  /-- Looks a resource up. -/
  | find
  /-- Shows all resources. -/
  | list
  /-- Shows the variables of the tool. -/
  | env
  /-- Runs the trace tool. -/
  | trace
  deriving DecidableEq, Repr

/-- What a command takes besides flags. -/
structure Parameter where
  /-- Its name. -/
  name : String
  /-- What it is. -/
  description : String
  /-- Whether it takes everything; otherwise it is one argument that has to be there. -/
  takesAll : Bool
  deriving DecidableEq, Repr

/-- A parameter in a usage line. -/
def Parameter.usage (p : Parameter) : String :=
  if p.takesAll then "[" ++ p.name ++ "...]" else "<" ++ p.name ++ ">"

namespace Command

/-- The commands, in the order of the help text. -/
def all : List Command := [.root, .path, .find, .list, .env, .trace]

/-- The name of a command. -/
def name : Command → String
  | .root => "root"
  | .path => "path"
  | .find => "find"
  | .list => "list"
  | .env => "env"
  | .trace => "trace"

/-- The command of a name. -/
def ofName? (s : String) : Option Command := all.find? (·.name == s)

/-- What a command does. -/
def description : Command → String
  | .root => "Print the bundled resource directories"
  | .path => "Print the resource search path, highest priority first"
  | .find => "Print the first resource file with the given name"
  | .list => "List visible resource files (first match per file name)"
  | .env => "Show the tool environment variables in effect"
  | .trace => "Run the trace companion tool with the given arguments"

/-- The flags of a command, but for the one that asks for help. -/
def flags : Command → List Flag
  | .path => [.layers]
  | .list => [.extension]
  | _ => []

/-- The parameter of a command. -/
def parameter? : Command → Option Parameter
  | .find => some ⟨"name", "File name relative to a search path directory", false⟩
  | .trace => some ⟨"args", "Arguments passed to the trace tool", true⟩
  | _ => none

/-- Whether a command takes flags that nobody knows for arguments. -/
def allowsStrays : Command → Bool
  | .trace => true
  | _ => false

theorem ofName?_name (c : Command) : ofName? c.name = some c := by cases c <;> decide

end Command

/-- The word that shows the usage of a command. -/
def helpWord : String := "help"

/-- The words that an operand may start with. -/
def words : List String := Command.all.map Command.name ++ [helpWord]

end ResourceLocator.CommandLine
