import ResourceLocator.CommandLine.Help
import ResourceLocator.CommandLine.Scan
import ResourceLocator.CommandLine.Suggestion

/-!
# Requests

The arguments of the program are read twice: once for the flags of the program, and what that
leaves is read for the command and its flags. The result is a request to run a command, or an
answer or a complaint that ends the program at once. The version is told as soon as it is asked
for, before any complaint about later arguments.
-/

namespace ResourceLocator.CommandLine

/-- What a command is asked to do. -/
inductive Action where
  /-- Show the root. -/
  | root
  /-- Show the search path, with its layers or without. -/
  | path (withLayers : Bool)
  /-- Look a name up. -/
  | find (name : String)
  /-- Show all resources, or those of one extension. -/
  | list (extension : Option String)
  /-- Show the variables. -/
  | env
  /-- Run the trace tool with arguments. -/
  | trace (args : List String)
  deriving DecidableEq, Repr

/-- What the flags of the program say. -/
structure Options where
  /-- Whether everything is logged and shown. -/
  isVerbose : Bool
  /-- Directories of the user layer, in order. -/
  includes : List String
  /-- A path for the executable. -/
  executable : Option String
  deriving DecidableEq, Repr

/-- Something wrong with the arguments. -/
inductive Complaint where
  /-- A flag lacks its value. -/
  | missingValue (flag : Flag)
  /-- Nobody knows a flag; `known` are the flags that it may have been meant for. -/
  | unknownFlag (arg : String) (known : List Flag)
  /-- There is no such command. -/
  | unknownCommand (word : String)
  /-- A command lacks its argument. -/
  | missingArgument (name : String)
  /-- Nothing is asked for. -/
  | nothingAsked
  deriving DecidableEq, Repr

/-- A complaint in words. The usage stands for a complaint that nothing is asked for. -/
def Complaint.message : Complaint → String
  | .missingValue flag => "error: option '" ++ flag.usage ++ "' argument missing\n"
  | .unknownFlag arg known =>
    let question :=
      if "--".toList.isPrefixOf arg.toList then Suggestion.question arg (known.map Flag.long)
      else ""
    "error: unknown option '" ++ arg ++ "'" ++ question ++ "\n"
  | .unknownCommand word =>
    "error: unknown command '" ++ word ++ "'" ++ Suggestion.question word words ++ "\n"
  | .missingArgument name => "error: missing required argument '" ++ name ++ "'\n"
  | .nothingAsked => Help.program

/-- What is asked of the program. -/
inductive Request where
  /-- A text for the standard output. -/
  | answer (text : String)
  /-- A text for the standard error. -/
  | refuse (complaint : Complaint)
  /-- A command. -/
  | run (options : Options) (action : Action)
  deriving DecidableEq, Repr

/-- The values of a flag among settings, in order. -/
def valuesOf (flag : Flag) (settings : List Setting) : List String :=
  settings.filterMap fun s ↦ if s.1 = flag then some s.2 else none

/-- Whether a flag is among settings. -/
def isSet (flag : Flag) (settings : List Setting) : Bool :=
  settings.any fun s ↦ s.1 = flag

/-- The options that settings of the program make; the last path of the executable counts. -/
def Options.ofSettings (settings : List Setting) : Options where
  isVerbose := isSet .verbose settings
  includes := valuesOf .includeDir settings
  executable := (valuesOf .executable settings).getLast?

/-- Whether help is asked for among strays. -/
def asksForHelp (strays : List String) : Bool :=
  strays.any Flag.help.isSpelling

/-- The action of a command, from its settings and arguments. -/
def Action.of? (settings : List Setting) (args : List String) : Command → Except Complaint Action
  | .root => .ok .root
  | .path => .ok (.path (isSet .layers settings))
  | .find => match args with
    | [] => .error (.missingArgument "name")
    | name :: _ => .ok (.find name)
  | .list => .ok (.list (valuesOf .extension settings).getLast?)
  | .env => .ok .env
  | .trace => .ok (.trace args)

/-- The flags that an unknown one given to a command may have been meant for. -/
def knownFlags (c : Command) : List Flag :=
  c.flags ++ [.help] ++ Flag.ofProgram ++ [.help]

/-- The request to a command, from the operands after its name and the strays of the program. -/
def readCommand (options : Options) (c : Command) (operands strays : List String) : Request :=
  let own := scan c.flags strays
  let args := operands ++ own.operands ++ own.strays
  match own.unmet? with
  | some flag => .refuse (.missingValue flag)
  | none =>
    if asksForHelp own.strays then .answer (Help.command c)
    else match own.strays, c.allowsStrays with
      | stray :: _, false => .refuse (.unknownFlag stray (knownFlags c))
      | _, _ => match Action.of? own.settings args c with
        | .error complaint => .refuse complaint
        | .ok action => .run options action

/-- The request for help about a word. -/
def readHelp : Option String → Request
  | none | some "" => .answer Help.program
  | some word => match Command.ofName? word with
    | some c => .answer (Help.command c)
    | none => .refuse .nothingAsked

/-- The request without a known command, from the operands and strays of the program. -/
def readRest (operands strays : List String) : Request :=
  if operands.isEmpty && strays.isEmpty then .refuse .nothingAsked
  else if asksForHelp strays then .answer Help.program
  else match operands, strays with
    | word :: _, _ => .refuse (.unknownCommand word)
    | [], stray :: _ => .refuse (.unknownFlag stray (Flag.ofProgram ++ [.help]))
    | [], [] => .refuse .nothingAsked

/-- The request that the arguments of the program make. -/
def readRequest (args : List String) : Request :=
  let own := scan Flag.ofProgram args
  if isSet .version own.settings then .answer (programVersion ++ "\n")
  else match own.unmet? with
    | some flag => .refuse (.missingValue flag)
    | none => match own.operands with
      | [] => readRest [] own.strays
      | word :: rest => match Command.ofName? word with
        | some c => readCommand (Options.ofSettings own.settings) c rest own.strays
        | none =>
          if word = helpWord then readHelp rest.head? else readRest (word :: rest) own.strays

end ResourceLocator.CommandLine
