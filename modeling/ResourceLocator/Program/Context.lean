import ResourceLocator.CommandLine.Request
import ResourceLocator.Config.Load
import ResourceLocator.Locate.Basic
import ResourceLocator.Locate.Executable
import ResourceLocator.Log.Console

/-!
# The context of a command

Before a command does its work the configuration is loaded, the debug log opened and the
threshold of the console log set. Asking for everything to be shown opens the debug log even
if the configuration does not.
-/

namespace ResourceLocator.Program

/-- How the program is started. -/
structure Invocation where
  /-- The arguments of the process: its program, the entry script and those of the user. -/
  arguments : List String
  /-- The environment. -/
  env : Environment
  /-- The directory of the project. -/
  directory : String

/-- What a command goes by. -/
structure Context where
  /-- The configuration. -/
  config : Config
  /-- The environment. -/
  env : Environment
  /-- The absolute directory of the project. -/
  directory : String
  /-- The absolute directories that the user asks for. -/
  userIncludes : List String
  /-- The path of the executable. -/
  executable : Except Failure String

/-- How the debug log is kept, if everything is shown or only what the configuration says. -/
def journalConfig (config : Config) (isVerbose : Bool) : Option JournalConfig :=
  if isVerbose && !config.debug.any (·.enabled) then some ⟨true, none⟩ else config.debug

/-- Directories read from a directory. -/
def resolveIncludes (cwd directory : String) (dirs : List String) : List String :=
  dirs.map fun dir ↦ Path.resolve cwd [directory, dir]

/-- The entry made when a command starts. -/
def startNote (context : Context) (isVerbose : Bool) : Note :=
  ⟨.info, "cli", "reloc starting",
    [("version", .text CommandLine.programVersion), ("cwd", .text context.directory),
      ("verbose", .bool isVerbose), ("tool", context.config.tool.toValue)]⟩

/-- The path of the executable: the one that is given, unless it is empty, or the entry
script. -/
def executableOf (cwd directory : String) (arguments : List String) (given : Option String) :
    Except Failure String :=
  match given with
  | none | some "" => Executable.ofArguments cwd directory arguments
  | some path => Executable.ofPath path

/-- Prepares the work of a command. -/
def prepare (invocation : Invocation) (options : CommandLine.Options) : Session Context := do
  let cwd := (← get).cwd
  let directory := Path.resolve cwd [invocation.directory]
  let config ← Config.load directory invocation.env
  let isVerbose := options.isVerbose || config.verbose
  Journal.configure (journalConfig config isVerbose) directory
  if isVerbose then
    Journal.setVerbose true
    Console.setThreshold .debug
  else
    Console.setThreshold config.logLevel
  let context : Context :=
    { config
      env := invocation.env
      directory
      userIncludes := resolveIncludes cwd directory options.includes
      executable := executableOf cwd directory invocation.arguments options.executable }
  Journal.write (startNote context isVerbose)
  return context

/-- What locating asks of its surroundings in a context. -/
def Context.host (context : Context) (cwd : String) : Host Session where
  cwd := cwd
  env := context.env
  executable := Session.ofExcept context.executable
  probe := Session.probe
  note := Journal.write

/-- Locates the resources of the configured tool. -/
def Context.locate (context : Context) : Session Located := do
  (context.host (← get).cwd).locate context.config context.userIncludes

end ResourceLocator.Program
