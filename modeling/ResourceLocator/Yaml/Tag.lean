import ResourceLocator.Text.Blank
import ResourceLocator.Yaml.Vocabulary

/-!
# Tags and directives

A tag is written with a handle, which stands for the start of the tag: `!!` for that of the
common tags, and any other as a directive says. A tag in `!<…>` is written in full. A directive
about the version chooses the vocabulary of plain scalars; versions that are not known choose
nothing.

`Directives.resolve` reads a tag as it is written, and `Directives.abbreviate` writes it.
-/

namespace ResourceLocator.Yaml

/-- What directives say about a document. -/
structure Directives where
  /-- The version of the format. -/
  version : Version := .v12
  /-- The handles of tags with what they stand for, in order. -/
  handles : List (String × String) := [("!!", commonTags)]
  deriving DecidableEq, Repr

namespace Directives

/-- What a handle stands for. -/
def startOf? (d : Directives) (handle : String) : Option String :=
  (d.handles.find? (·.1 == handle)).map (·.2)

/-- The directives with a handle. One that is there already changes in its place. -/
def addHandle (d : Directives) (handle start : String) : Directives :=
  if (d.startOf? handle).isSome then
    { d with handles := d.handles.map fun h ↦ if h.1 = handle then (handle, start) else h }
  else { d with handles := d.handles ++ [(handle, start)] }

/-! ### Tags -/

/-- The bytes of a text in which `%` and two hexadecimal digits stand for a byte, if each percent
sign has its digits. -/
def percentBytes? : List Char → Option (List UInt8)
  | '%' :: a :: b :: rest => do
    let high ← Number.digitValue? a
    let low ← Number.digitValue? b
    return UInt8.ofNat (high * 16 + low) :: (← percentBytes? rest)
  | c :: rest =>
    if c == '%' then none
    else (percentBytes? rest).map ((String.singleton c).toUTF8.toList ++ ·)
  | [] => some []

/-- A text with its percent signs decoded, if that gives characters. -/
def percentDecode? (cs : List Char) : Option String :=
  (percentBytes? cs).bind fun bytes ↦ String.fromUTF8? ⟨bytes.toArray⟩

/-- The tag that is written as `source`, in full. A tag without characters is none. -/
def resolve (d : Directives) (source : List Char) : Except Fault (Option String) :=
  match source with
  | ['!'] => .ok (some "!")
  | '!' :: '<' :: rest =>
    let inner := String.ofList rest.dropLast
    if inner = "!" || inner = "!!" || rest.getLast? ≠ some '>' then .error .tag
    else .ok (if inner.isEmpty then none else some inner)
  | _ =>
    let suffix := (source.reverse.takeWhile (· ≠ '!')).reverse
    let handle := String.ofList (source.take (source.length - suffix.length))
    if suffix.isEmpty then .error .tag
    else match d.startOf? handle with
      | some start => match percentDecode? suffix with
        | some suffix => .ok (some (start ++ suffix))
        | none => .error .tag
      | none => if handle = "!" then .ok (some (String.ofList source)) else .error .tag

/-- A character of a tag after its handle; those that would end the tag or start a handle are
written as bytes. -/
def escapeTagChar (c : Char) : List Char :=
  match c with
  | '!' => ['%', '2', '1']
  | ',' => ['%', '2', 'C']
  | '[' => ['%', '5', 'B']
  | ']' => ['%', '5', 'D']
  | '\x7b' => ['%', '7', 'B']
  | '\x7d' => ['%', '7', 'D']
  | c => [c]

/-- A tag as it is written: with the first handle that stands for a start of it, or in full. -/
def abbreviate (d : Directives) (tag : String) : List Char :=
  let cs := tag.toList
  match d.handles.find? fun h ↦ h.2.toList.isPrefixOf cs with
  | some (handle, start) =>
    handle.toList ++ (cs.drop start.toList.length).flatMap escapeTagChar
  | none => if cs.head? == some '!' then cs else '!' :: '<' :: cs ++ ['>']

/-! ### Directives -/

/-- Whether a text is a version: digits, a point and digits. -/
def isVersion (cs : List Char) : Bool :=
  let (whole, rest) := cs.span Char.isDigit
  match rest with
  | '.' :: minor => !whole.isEmpty && !minor.isEmpty && minor.all Char.isDigit
  | _ => false

/-- The directives with one more, which is given as it is written. Directives of unknown names
have no effect. -/
def add (d : Directives) (line : List Char) : Except Fault Directives :=
  let words := Text.runs (fun c ↦ c ≠ ' ' && c ≠ '\t') (Text.trim line)
  match words.map String.ofList with
  | "%YAML" :: args => match args with
    | ["1.1"] => .ok { d with version := .v11 }
    | ["1.2"] => .ok { d with version := .v12 }
    | [version] => if isVersion version.toList then .ok d else .error .directive
    | _ => .error .directive
  | "%TAG" :: args => match args with
    | [handle, start] => .ok (d.addHandle handle start)
    | _ => .error .directive
  | _ => .ok d

end Directives

end ResourceLocator.Yaml
