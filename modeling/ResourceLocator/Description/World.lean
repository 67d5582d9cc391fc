import ResourceLocator.Description.Value
import ResourceLocator.FileSystem.Edit
import ResourceLocator.Session
import ResourceLocator.Text.Utf8

/-!
# Descriptions of worlds

A world can be described by a record: what its file system holds, where the process stands, what
the clock shows, and what will come of child processes. What is left out has a default.
-/

namespace ResourceLocator.Description

/-- The fields of a key, none if there is no record. -/
def fieldsOf (fields : Fields) (key : String) : Fields :=
  match Fields.get? fields key with
  | some (.record inner) => inner
  | _ => []

/-- The items of a key, none if there is no list. -/
def itemsOf (fields : Fields) (key : String) : List Value :=
  match Fields.get? fields key with
  | some (.list items) => items
  | _ => []

/-- The texts of a list of values. -/
def texts (items : List Value) : List String :=
  items.filterMap fun
    | .text s => some s
    | _ => none

/-- The fields that are texts. -/
def textFields (fields : Fields) : List (String × String) :=
  fields.filterMap fun
    | (key, .text s) => some (key, s)
    | _ => none

/-- Whether the value of a key is true. -/
def isTrue (fields : Fields) (key : String) : Bool :=
  match Fields.get? fields key with
  | some (.bool b) => b
  | _ => false

/-- The bytes of pairs of hexadecimal digits. -/
def bytes : List Char → List UInt8
  | a :: b :: rest =>
    match Number.digitValue? a, Number.digitValue? b with
    | some a, some b => UInt8.ofNat (a * 16 + b) :: bytes rest
    | _, _ => bytes rest
  | _ => []

/-- The text that a file holds: a text or bytes. -/
def content : Value → String
  | .text s => s
  | .record fields => Text.Utf8.decode (bytes ((text? fields "hex").getD "").toList)
  | _ => ""

/-- The location of an absolute path. -/
def location (path : String) : Location := Location.descend [] path

/-- The locations of a list of paths. -/
def locations (items : List Value) : List Location := (texts items).map location

/-- The edit that makes a described file system. -/
def layout (fields : Fields) : Edit where
  directories := locations (itemsOf fields "dirs")
  files := (fieldsOf fields "files").map fun (path, v) ↦ (location path, content v)
  links := (textFields (fieldsOf fields "links")).map fun (path, target) ↦
    (location path, target)
  lock := locations (itemsOf fields "deny")

/-- A described edit. -/
def edit (fields : Fields) : Edit where
  remove := locations (itemsOf fields "rm")
  directories := locations (itemsOf fields "mkdir")
  files := (fieldsOf fields "put").map fun (path, v) ↦ (location path, content v)
  links := (textFields (fieldsOf fields "link")).map fun (path, target) ↦
    (location path, target)
  lock := locations (itemsOf fields "deny")
  unlock := locations (itemsOf fields "allow")

/-- A described environment. -/
def environment (fields : Fields) : Environment := Environment.ofList (textFields fields)

/-- What a description says of a child process. -/
def reply : Value → Option Reply
  | .record fields => match Fields.get? fields "throw" with
    | some v => some (.failure (value v))
    | none => some (.output ((text? fields "stdout").getD ""))
  | _ => none

/-- The instant that the clock shows unless another is given. -/
def defaultInstant : Instant := 1704164645678

/-- The arguments of a process unless others are given. -/
def defaultArguments : List String := ["/usr/bin/node"]

/-- The described world. The working directory is made if nothing is there. -/
def world (fields : Fields) : World where
  disk :=
    let disk := FileSystem.empty.edit (layout (fieldsOf fields "fs"))
    disk.makeDirectories (location ((text? fields "cwd").getD "/work"))
  cwd := (text? fields "cwd").getD "/work"
  home := (text? fields "home").getD "/home/user"
  now := intD fields "now" defaultInstant
  env := environment (fieldsOf fields "processEnv")
  argv := match Fields.get? fields "processArgv" with
    | some (.list items) => texts items
    | _ => defaultArguments
  replies := (itemsOf fields "exec").filterMap reply
  hasColours := isTrue fields "color"
  journal := { isVerbose := isTrue fields "verbose" }

end ResourceLocator.Description
