import ResourceLocator.Number.Decimal
import ResourceLocator.Number.Shortest
import ResourceLocator.Value.Basic

/-!
# Values as JSON

`Json.write?` gives the JSON text of a value without spaces. Absent values and symbols have
none: they are left out of records and written as null in lists. Large integers and cyclic
records cannot be written at all.

`Json.read?` accepts exactly the texts of the grammar: blanks are the space, the tab and the
two line ends, and nothing may follow the value. The last of several values of a key counts.
-/

namespace ResourceLocator.Json

/-! ### Writing -/

/-- A digit of a hexadecimal escape. -/
def hexDigit (n : Nat) : Char := Nat.digitChar (n % 16)

/-- A character inside a quoted text. -/
def escapeChar (c : Char) : List Char :=
  match c with
  | '"' => ['\\', '"']
  | '\\' => ['\\', '\\']
  | '\n' => ['\\', 'n']
  | '\r' => ['\\', 'r']
  | '\t' => ['\\', 't']
  | '\x08' => ['\\', 'b']
  | '\x0c' => ['\\', 'f']
  | c => if c.toNat < 0x20 then ['\\', 'u', '0', '0', hexDigit (c.toNat / 16), hexDigit c.toNat]
    else [c]

/-- A text in quotes. -/
def quote (s : String) : String :=
  String.ofList ('"' :: s.toList.flatMap escapeChar ++ ['"'])

/-- Why a value cannot be written. -/
inductive Unwritable where
  /-- It holds an integer of any size. -/
  | integer
  /-- It holds itself. -/
  | cyclic
  deriving DecidableEq, Repr

/-- A list of texts between brackets. -/
def enclose (opening closing : String) (parts : List String) : String :=
  opening ++ String.intercalate "," parts ++ closing

mutual

/-- The JSON text of a value, if it has one. -/
def write? : Value → Except Unwritable (Option String)
  | .undefined => .ok none
  | .symbol _ => .ok none
  | .null => .ok (some "null")
  | .bool b => .ok (some (if b then "true" else "false"))
  | .number (.finite s m e) => .ok (some (Number.text (.finite s m e)))
  | .number _ => .ok (some "null")
  | .integer _ => .error .integer
  | .text s => .ok (some (quote s))
  | .list items => (writeItems items).map fun parts ↦ some (enclose "[" "]" parts)
  | .record fields => (writeFields fields).map fun parts ↦ some (enclose "\x7b" "\x7d" parts)
  | .error _ _ fields => (writeFields fields).map fun parts ↦ some (enclose "\x7b" "\x7d" parts)
  | .cycle => .error .cyclic
  | .bytes bs => .ok (some (enclose "\x7b" "\x7d" ["\"type\":\"Buffer\"",
      "\"data\":" ++ enclose "[" "]" (bs.map fun b ↦ toString b.toNat)]))
  | .instant t => .ok (some (quote (String.ofList t.timestamp)))
  | .set _ | .table _ => .ok (some "\x7b\x7d")

/-- The texts of the items of a list. -/
def writeItems : List Value → Except Unwritable (List String)
  | [] => .ok []
  | v :: vs => do
    let head := (← write? v).getD "null"
    return head :: (← writeItems vs)

/-- The texts of the fields of a record, without those that have none. -/
def writeFields : List (String × Value) → Except Unwritable (List String)
  | [] => .ok []
  | (key, v) :: rest => do
    let head ← write? v
    let tail ← writeFields rest
    return match head with
      | some t => (quote key ++ ":" ++ t) :: tail
      | none => tail

end

/-! ### Reading -/

/-- Drops the blanks of the grammar. -/
def skipBlanks (cs : List Char) : List Char :=
  cs.dropWhile fun c ↦ c == ' ' || c == '\t' || c == '\n' || c == '\r'

/-- Four hexadecimal digits and the rest. -/
def fourHex? : List Char → Option (Nat × List Char)
  | a :: b :: c :: d :: rest => do
    let a ← Number.digitValue? a
    let b ← Number.digitValue? b
    let c ← Number.digitValue? c
    let d ← Number.digitValue? d
    return (a * 0x1000 + b * 0x100 + c * 0x10 + d, rest)
  | _ => none

/-- The character of a unit and the rest; the second half of a surrogate pair is read with the
first, and a half alone stands for U+FFFD. -/
def unitChar (unit : Nat) (rest : List Char) : Char × List Char :=
  if 0xD800 ≤ unit && unit < 0xDC00 then
    match rest with
    | '\\' :: 'u' :: more => match fourHex? more with
      | some (low, more) =>
        if 0xDC00 ≤ low && low < 0xE000 then
          (Char.ofNat (0x10000 + (unit - 0xD800) * 0x400 + (low - 0xDC00)), more)
        else ('\ufffd', rest)
      | none => ('\ufffd', rest)
    | _ => ('\ufffd', rest)
  else if 0xDC00 ≤ unit && unit < 0xE000 then ('\ufffd', rest)
  else (Char.ofNat unit, rest)

/-- The characters of a quoted text after its opening quote, and the rest. -/
def readChars? : Nat → List Char → Option (List Char × List Char)
  | 0, _ => none
  | fuel + 1, cs => do
    match cs with
    | [] => none
    | '"' :: rest => return ([], rest)
    | '\\' :: 'u' :: rest =>
      let (unit, rest) ← fourHex? rest
      let (c, rest) := unitChar unit rest
      let (cs, rest) ← readChars? fuel rest
      return (c :: cs, rest)
    | '\\' :: e :: rest =>
      let c ← match e with
        | '"' => some '"'
        | '\\' => some '\\'
        | '/' => some '/'
        | 'b' => some '\x08'
        | 'f' => some '\x0c'
        | 'n' => some '\n'
        | 'r' => some '\r'
        | 't' => some '\t'
        | _ => none
      let (cs, rest) ← readChars? fuel rest
      return (c :: cs, rest)
    | c :: rest =>
      if c.toNat < 0x20 || c == '\\' then none
      else
        let (cs, rest) ← readChars? fuel rest
        return (c :: cs, rest)

/-- A run of digits, as it stands, and the rest. -/
def spanDigits (cs : List Char) : List Char × List Char :=
  cs.span Char.isDigit

/-- The natural number of a run of digits. -/
def digitsValue (cs : List Char) : Nat := Nat.ofDigitChars 10 cs 0

/-- A number and the rest. -/
def readNumber? (cs : List Char) : Option (Number × List Char) := do
  let (negative, cs) := match cs with
    | '-' :: rest => (true, rest)
    | cs => (false, cs)
  let (whole, cs) := spanDigits cs
  if whole.isEmpty || (1 < whole.length && whole.head? == some '0') then none
  else
    let (fraction, cs) ← match cs with
      | '.' :: rest =>
        let (fraction, rest) := spanDigits rest
        if fraction.isEmpty then none else some (fraction, rest)
      | cs => some ([], cs)
    let (exponent, cs) ← match cs with
      | e :: rest =>
        if e == 'e' || e == 'E' then
          let (negative, rest) := match rest with
            | '-' :: rest => (true, rest)
            | '+' :: rest => (false, rest)
            | rest => (false, rest)
          let (digits, rest) := spanDigits rest
          if digits.isEmpty then none
          else
            let n : Int := digitsValue digits
            some (if negative then -n else n, rest)
        else some (0, cs)
      | [] => some (0, cs)
    return (Number.ofDecimal negative (digitsValue (whole ++ fraction))
      (exponent - fraction.length), cs)

/-- The rest after a word, if the text starts with it. -/
def dropWord? (word : String) (cs : List Char) : Option (List Char) :=
  if word.toList.isPrefixOf cs then some (cs.drop word.length) else none

mutual

/-- A value and the rest. -/
def readValue? : Nat → List Char → Option (Value × List Char)
  | 0, _ => none
  | fuel + 1, cs =>
    match skipBlanks cs with
    | '"' :: rest => (readChars? (rest.length + 1) rest).map fun (s, rest) ↦
        (.text (String.ofList s), rest)
    | '[' :: rest => match skipBlanks rest with
      | ']' :: rest => some (.list [], rest)
      | _ => (readItems? fuel rest).map fun (vs, rest) ↦ (.list vs, rest)
    | '\x7b' :: rest => match skipBlanks rest with
      | '\x7d' :: rest => some (.record [], rest)
      | _ => (readFields? fuel [] rest).map fun (fields, rest) ↦ (.record fields, rest)
    | 't' :: rest => (dropWord? "rue" rest).map (.bool true, ·)
    | 'f' :: rest => (dropWord? "alse" rest).map (.bool false, ·)
    | 'n' :: rest => (dropWord? "ull" rest).map (.null, ·)
    | cs => (readNumber? cs).map fun (n, rest) ↦ (.number n, rest)

/-- The items of a list after its bracket, at least one, and the rest. -/
def readItems? : Nat → List Char → Option (List Value × List Char)
  | 0, _ => none
  | fuel + 1, cs => do
    let (v, rest) ← readValue? fuel cs
    match skipBlanks rest with
    | ',' :: rest =>
      let (vs, rest) ← readItems? fuel rest
      return (v :: vs, rest)
    | ']' :: rest => return ([v], rest)
    | _ => none

/-- The fields of a record after its bracket, at least one, put over `done`, and the rest. -/
def readFields? : Nat → Fields → List Char → Option (Fields × List Char)
  | 0, _, _ => none
  | fuel + 1, done, cs => do
    let '"' :: rest := skipBlanks cs | none
    let (key, rest) ← readChars? (rest.length + 1) rest
    let ':' :: rest := skipBlanks rest | none
    let (v, rest) ← readValue? fuel rest
    let done := Fields.put done (String.ofList key) v
    match skipBlanks rest with
    | ',' :: rest => readFields? fuel done rest
    | '\x7d' :: rest => return (done, rest)
    | _ => none

end

/-- The value of a JSON text. -/
def read? (s : String) : Option Value := do
  let cs := s.toList
  let (v, rest) ← readValue? (2 * cs.length + 2) cs
  if (skipBlanks rest).isEmpty then return v else none

end ResourceLocator.Json
