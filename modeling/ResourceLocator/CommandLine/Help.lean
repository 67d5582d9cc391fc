import ResourceLocator.CommandLine.Command
import ResourceLocator.Text.Blank

/-!
# Help texts

A help text has a usage line, a description and lists of terms. Within a list, descriptions
start in one column, two places after the longest term of the whole text, and their lines are
broken between words before the right margin.
-/

namespace ResourceLocator.CommandLine.Help

/-- Where lines end. -/
def width : Nat := 80

/-- A term and its description. -/
abbrev Item := String × String

/-- Words in lines of at most `room` characters; `line` is the line begun. -/
def fill (room : Nat) (line : String) : List String → List String
  | [] => [line]
  | word :: rest =>
    if line.length + 1 + word.length ≤ room then fill room (line ++ " " ++ word) rest
    else line :: fill room word rest

/-- A text in lines of at most `room` characters. -/
def breakLines (room : Nat) (text : String) : List String :=
  match Text.words text with
  | [] => [""]
  | word :: rest => fill room word rest

/-- Spaces. -/
def spaces (n : Nat) : String := String.ofList (List.replicate n ' ')

/-- An item of a list whose descriptions start at `column`, as lines. -/
def itemLines (column : Nat) (item : Item) : List String :=
  -- The last place of a line is left free, and lines begin with two spaces.
  match breakLines (width - 3 - column) item.2 with
  | [] => []
  | first :: rest =>
    ("  " ++ item.1 ++ spaces (column - item.1.length) ++ first) ::
      rest.map (spaces (column + 2) ++ ·)

/-- A list of terms under a title, as lines with an empty one at the end; nothing for no
terms. -/
def sectionLines (column : Nat) (title : String) (items : List Item) : List String :=
  if items.isEmpty then [] else title :: items.flatMap (itemLines column) ++ [""]

/-- A help text. -/
def render (usage description : String) (sections : List (String × List Item)) : String :=
  let terms := sections.flatMap fun s ↦ s.2.map (·.1.length)
  let column := terms.foldl max 0 + 2
  let lines := ["Usage: " ++ usage, "", description, ""] ++
    sections.flatMap fun s ↦ sectionLines column s.1 s.2
  String.intercalate "\n" lines

/-- The item of a flag. -/
def flagItem (flag : Flag) : Item := (flag.usage, flag.description)

/-- A command in the list of commands. -/
def commandItem (c : Command) : Item :=
  let flags := if c.flags.isEmpty then "" else " [options]"
  let parameter := match c.parameter? with
    | some p => " " ++ p.usage
    | none => ""
  (c.name ++ flags ++ parameter, c.description)

/-- The help text of the program. -/
def program : String :=
  render (programName ++ " [options] [command]") programDescription
    [("Options:", (Flag.ofProgram ++ [Flag.help]).map flagItem),
     ("Commands:", Command.all.map commandItem ++
        [(helpWord ++ " [command]", Flag.help.description)])]

/-- The help text of a command. -/
def command (c : Command) : String :=
  let parameter := match c.parameter? with
    | some p => " " ++ p.usage
    | none => ""
  render (programName ++ " " ++ c.name ++ " [options]" ++ parameter) c.description
    [("Arguments:", c.parameter?.toList.map fun p ↦ (p.name, p.description)),
     ("Options:", (c.flags ++ [Flag.help]).map flagItem)]

end ResourceLocator.CommandLine.Help
