import ResourceLocator.CommandLine.Flag

/-!
# Scanning arguments

A scan with some known flags sorts the arguments into settings of these flags, operands, and
*strays*. The first argument that looks like a flag and is not known makes itself and all later
arguments that are not known flags strays, since they may mean something to a command. Known
flags are taken wherever they stand, up to an argument `--`.

A value follows its flag in the next argument, in the same one after the letter, or after an
equals sign. `scan` recurses on the arguments; `read` says what one of them means.
-/

namespace ResourceLocator.CommandLine

/-- A flag with its value, which is empty for a flag without one. -/
abbrev Setting := Flag × String

/-- What is left of an argument when its settings have been taken. -/
inductive Leftover where
  /-- Nothing is left. -/
  | nothing
  /-- A flag waits for its value. -/
  | awaiting (flag : Flag)
  /-- A text that no known flag reads. -/
  | text (s : String)
  deriving DecidableEq, Repr

/-- What an argument means. -/
structure Reading where
  /-- The settings that it holds. -/
  settings : List Setting
  /-- What is left. -/
  leftover : Leftover
  deriving DecidableEq, Repr

/-- Whether an argument looks like a flag. -/
def looksLikeFlag (arg : String) : Bool :=
  match arg.toList with
  | '-' :: _ :: _ => true
  | _ => false

/-- Letters after one dash: flags without a value may be followed by others, and a value goes to
the end. -/
def readLetters (flags : List Flag) : List Char → Reading
  | [] => ⟨[], .nothing⟩
  | c :: rest => match Flag.ofLetter? flags c with
    | none => ⟨[], .text (String.ofList ('-' :: c :: rest))⟩
    | some flag =>
      if flag.takesValue then
        if rest.isEmpty then ⟨[], .awaiting flag⟩
        else ⟨[(flag, String.ofList rest)], .nothing⟩
      else
        let more := readLetters flags rest
        { more with settings := (flag, "") :: more.settings }

/-- A long spelling and, after an equals sign, a value. -/
def readAssignment? (flags : List Flag) (arg : String) : Option Setting :=
  let cs := arg.toList
  let name := cs.takeWhile (· ≠ '=')
  match cs.dropWhile (· ≠ '=') with
  | '=' :: value => match Flag.find? flags (String.ofList name) with
    | some flag => if flag.takesValue then some (flag, String.ofList value) else none
    | none => none
  | _ => none

/-- What an argument means to some known flags. -/
def read (flags : List Flag) (arg : String) : Reading :=
  match Flag.find? flags arg with
  | some flag => if flag.takesValue then ⟨[], .awaiting flag⟩ else ⟨[(flag, "")], .nothing⟩
  | none => match arg.toList with
    | '-' :: '-' :: _ => match readAssignment? flags arg with
      | some setting => ⟨[setting], .nothing⟩
      | none => ⟨[], .text arg⟩
    | '-' :: c :: rest => readLetters flags (c :: rest)
    | _ => ⟨[], .text arg⟩

/-- The outcome of a scan. -/
structure Scan where
  /-- The settings, in order. -/
  settings : List Setting := []
  /-- The operands, in order. -/
  operands : List String := []
  /-- The strays, in order. -/
  strays : List String := []
  /-- A flag whose value is missing at the end. -/
  unmet? : Option Flag := none
  deriving DecidableEq, Repr

namespace Scan

/-- A scan with settings before it. -/
def addSettings (settings : List Setting) (scan : Scan) : Scan :=
  { scan with settings := settings ++ scan.settings }

/-- A scan with an argument before it that is no setting. -/
def addArgument (isStray : Bool) (arg : String) (scan : Scan) : Scan :=
  if isStray then { scan with strays := arg :: scan.strays }
  else { scan with operands := arg :: scan.operands }

end Scan

/-- Scans arguments; `astray` says whether a stray stands before them. -/
def scanFrom (flags : List Flag) (astray : Bool) : List String → Scan
  | [] => {}
  | arg :: rest =>
    if arg = "--" then
      if astray then { strays := arg :: rest } else { operands := rest }
    else
      let reading := read flags arg
      Scan.addSettings reading.settings <|
        match reading.leftover with
        | .nothing => scanFrom flags astray rest
        | .text s =>
          let astray := astray || looksLikeFlag s
          (scanFrom flags astray rest).addArgument astray s
        | .awaiting flag => match rest with
          | [] => { unmet? := some flag }
          | value :: rest => (scanFrom flags astray rest).addSettings [(flag, value)]

/-- Scans arguments for some known flags. -/
def scan (flags : List Flag) (args : List String) : Scan :=
  scanFrom flags false args

end ResourceLocator.CommandLine
