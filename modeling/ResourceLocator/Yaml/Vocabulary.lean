import ResourceLocator.Number.Decimal
import ResourceLocator.Text.Base64
import ResourceLocator.Value.Basic
import ResourceLocator.Yaml.Fault

/-!
# What scalars mean

A plain scalar is null, a truth value, a number or an instant if it is written like one, and a
text otherwise. Which spellings there are depends on the version of the format: the later version
has few, and the earlier one has more words for truth values, grouped digits, numbers in base 60
and instants.

A tag may ask for a kind. A scalar that is not written like that kind is a text, but for instants
in the later version, where it is a fault.
-/

namespace ResourceLocator.Yaml

/-- The versions of the format. -/
inductive Version where
  /-- Version 1.1. -/
  | v11
  /-- Version 1.2. -/
  | v12
  deriving DecidableEq, Repr

/-- What a number keeps of how it was written. -/
inductive NumberForm where
  /-- Nothing. -/
  | plain
  /-- How many digits stand after the point, the last of them a zero. -/
  | decimals (count : Nat)
  /-- That there is an exponent. -/
  | exponent
  /-- The base, and what stands before the digits. -/
  | based (base : Nat) (lead : String)
  /-- That it is in base 60. -/
  | sexagesimal
  deriving DecidableEq, Repr

/-- What a scalar has been read as. -/
structure Datum where
  /-- The value. -/
  value : Value
  /-- What a number keeps of how it was written. -/
  form : NumberForm := .plain

/-- A kind of scalars other than texts. -/
structure ScalarKind where
  /-- The tag that asks for the kind. -/
  tag : String
  /-- Reads a scalar that is written like one of the kind. -/
  read? : List Char → Option Datum

/-- The start of the tags that every document knows. -/
def commonTags : String := "tag:yaml.org,2002:"

namespace ScalarKind

open Number (takeSign natural? integer? decimal?)

/-- A kind of scalars that stand for numbers. -/
def ofNumbers (tag : String) (read? : List Char → Option (Number × NumberForm)) : ScalarKind :=
  ⟨commonTags ++ tag, fun cs ↦ (read? cs).map fun (n, form) ↦ ⟨.number n, form⟩⟩

/-- A kind of scalars that are one of a few words for the same value. -/
def ofWords (tag : String) (value : Value) (words : List String) : ScalarKind :=
  ⟨commonTags ++ tag, fun cs ↦ if words.contains (String.ofList cs) then some ⟨value, .plain⟩
    else none⟩

/-- Nothing. -/
def null : ScalarKind := ofWords "null" .null ["", "~", "null", "Null", "NULL"]

/-! ### The later version -/

/-- A number in a base: what stands before the digits, and digits. -/
def based (base : Nat) (lead : String) : ScalarKind := ofNumbers "int" fun cs ↦
  if lead.toList.isPrefixOf cs then
    (natural? base (cs.drop lead.length)).map fun n ↦ (.nearest false n 1, .based base lead)
  else none

/-- A whole number: a sign, if there is one, and decimal digits. -/
def int : ScalarKind := ofNumbers "int" fun cs ↦
  let (negative, digits) := takeSign cs
  (natural? 10 digits).map fun n ↦ (.nearest negative n 1, .plain)

/-- An infinity, which a sign may precede, or not-a-number. -/
def special : ScalarKind := ofNumbers "float" fun cs ↦
  let (negative, rest) := takeSign cs
  if [".inf", ".Inf", ".INF"].contains (String.ofList rest) then some (.infinite negative, .plain)
  else if [".nan", ".NaN", ".NAN"].contains (String.ofList cs) then some (.nan, .plain)
  else none

/-- Whether a decimal has an exponent. -/
def hasExponent (cs : List Char) : Bool := cs.any fun c ↦ c == 'e' || c == 'E'

/-- A decimal with an exponent. -/
def exponential : ScalarKind := ofNumbers "float" fun cs ↦
  if hasExponent cs then (decimal? cs).map (·, .exponent) else none

/-- The form of a decimal whose digits after the point are given. -/
def formOf (fraction : List Char) : NumberForm :=
  if fraction.getLast? == some '0' then .decimals fraction.length else .plain

/-- A decimal with a point and without an exponent. -/
def decimal : ScalarKind := ofNumbers "float" fun cs ↦
  if cs.contains '.' && !hasExponent cs then
    (decimal? cs).map (·, formOf ((cs.dropWhile (· ≠ '.')).drop 1))
  else none

/-! ### The earlier version -/

/-- A text without the underscores that group its digits. -/
def ungroup (cs : List Char) : List Char := cs.filter (· ≠ '_')

/-- A number in a base, with grouped digits and a sign. Without any digit it is not-a-number. -/
def groupedBased (base : Nat) (lead : String) : ScalarKind := ofNumbers "int" fun cs ↦
  let (negative, rest) := takeSign cs
  let digits := rest.drop lead.length
  if lead.toList.isPrefixOf rest && !digits.isEmpty then
    if (ungroup digits).isEmpty then some (.nan, .based base lead)
    else (natural? base (ungroup digits)).map fun n ↦ (.nearest negative n 1, .based base lead)
  else none

/-- Whether a text is a digit and more digits, which may be grouped. -/
def isGrouped (cs : List Char) : Bool :=
  cs.head?.any Char.isDigit && cs.all fun c ↦ c.isDigit || c == '_'

/-- A whole number with grouped digits. -/
def groupedInt : ScalarKind := ofNumbers "int" fun cs ↦
  let (negative, digits) := takeSign cs
  if isGrouped digits then
    (natural? 10 (ungroup digits)).map fun n ↦ (.nearest negative n 1, .plain)
  else none

/-- A decimal with grouped digits: whether it is written like one, and its parts after the sign,
which are the digits before the point, those after it if there is one, and the rest. -/
def groupedParts? (cs : List Char) : Option (List Char × Option (List Char) × List Char) :=
  let isDigit := fun c : Char ↦ c.isDigit || c == '_'
  let (whole, rest) := (takeSign cs).2.span isDigit
  if !whole.isEmpty && !isGrouped whole then none
  else match rest with
    | '.' :: more => let (fraction, rest) := more.span isDigit; some (whole, some fraction, rest)
    | rest => some (whole, none, rest)

/-- A decimal with grouped digits and an exponent. Without any digit before the exponent it is
not-a-number. -/
def groupedExponential : ScalarKind := ofNumbers "float" fun cs ↦
  match groupedParts? cs with
  | some (_, _, e :: digits) =>
    if (e == 'e' || e == 'E') && (integer? digits).isSome then
      some ((decimal? (ungroup cs)).getD .nan, .exponent)
    else none
  | _ => none

/-- A decimal with grouped digits and a point. A point alone is not-a-number. -/
def groupedDecimal : ScalarKind := ofNumbers "float" fun cs ↦
  match groupedParts? cs with
  | some (_, some fraction, []) =>
    some ((decimal? (ungroup cs)).getD .nan, formOf (ungroup fraction))
  | _ => none

/-- The number of digits in base 60: those before the last colon, and the last ones, which may
have a point. -/
def sexagesimalOf? (negative : Bool) (parts : List (List Char)) (last : List Char) :
    Option Number := do
  let whole ← parts.foldlM (fun n part ↦ return n * 60 + (← natural? 10 part)) 0
  match ← decimal? last with
  | .finite _ m e =>
    let (num, den) := Number.scaled m 1 (-e)
    return .nearest negative (whole * 60 * den + num) den
  | n => return n

/-- A number in base 60: grouped digits, and one or more times a colon and a number below 60. The
last one may have a point if `hasPoint`. -/
def sexagesimal (tag : String) (hasPoint : Bool) : ScalarKind := ofNumbers tag fun cs ↦
  let (negative, rest) := takeSign cs
  let isBelow60 := fun part : List Char ↦
    (part.length = 1 || (part.length = 2 && part.head?.any (· ≤ '5'))) && part.all Char.isDigit
  match Text.pieces (· == ':') rest with
  | first :: second :: more =>
    let parts := second :: more
    let last := parts.getLast?.getD []
    let (units, point) := last.span Char.isDigit
    let isEnd := if hasPoint then
        point.head? == some '.' && (point.drop 1).all fun c ↦ c.isDigit || c == '_'
      else point.isEmpty
    if isGrouped first && parts.dropLast.all isBelow60 && isBelow60 units && isEnd then
      (sexagesimalOf? negative (ungroup first :: parts.dropLast) (ungroup last)).map
        (·, .sexagesimal)
    else none
  | _ => none

/-! ### Instants -/

/-- A number of one to `most` digits, and the rest. -/
def someDigits? (most : Nat) (cs : List Char) : Option (Nat × List Char) :=
  let digits := (cs.take most).takeWhile Char.isDigit
  (natural? 10 digits).map fun n ↦ (n, cs.drop digits.length)

/-- The text after a character that it starts with. -/
def after? (c : Char) : List Char → Option (List Char)
  | d :: rest => if c = d then some rest else none
  | [] => none

/-- Blanks are spaces and tabs. -/
def isSpace (c : Char) : Bool := c == ' ' || c == '\t'

/-- The minutes of a distance from universal time: hours, or hours and minutes, or minutes if
there are thirty or more of them. -/
def zoneMinutes? : List Char → Option Int
  | [] => some 0
  | ['Z'] => some 0
  | sign :: rest => do
    if sign ≠ '+' ∧ sign ≠ '-' then none
    else
      let (hours, rest) ← match rest with
        | [_] => someDigits? 1 rest
        | _ :: ':' :: _ => someDigits? 1 rest
        | tens :: _ => if tens ≤ '2' then someDigits? 2 rest else none
        | [] => none
      let total ← match rest with
        | [] => some hours
        | [':', a, b] => (natural? 10 [a, b]).map (hours * 60 + ·)
        | _ => none
      let minutes : Int := if total < 30 then total * 60 else total
      return if sign = '-' then -minutes else minutes

/-- The milliseconds of the digits after the point of a second. -/
def milliseconds (fraction : List Char) : Nat :=
  (natural? 10 ((fraction ++ ['0', '0']).take 3)).getD 0

/-- The time of day after a date, in milliseconds, with the distance from universal time taken
off. -/
def timeOfDay? (cs : List Char) : Option Int := do
  let start := match cs with
    | 't' :: rest => some rest
    | 'T' :: rest => some rest
    | c :: rest => if isSpace c then some (rest.dropWhile isSpace) else none
    | [] => none
  let (hour, rest) ← someDigits? 2 (← start)
  let (minute, rest) ← someDigits? 2 (← after? ':' rest)
  let (second, rest) ← someDigits? 2 (← after? ':' rest)
  let (ms, rest) ← match rest with
    | '.' :: more =>
      let fraction := more.takeWhile Char.isDigit
      if fraction.isEmpty then none
      else some (milliseconds fraction, more.drop fraction.length)
    | rest => some (0, rest)
  let zone ← zoneMinutes? (rest.dropWhile isSpace)
  if zone = 0 && !rest.isEmpty && (rest.dropWhile isSpace).isEmpty then none
  else
    let day : Nat := ((hour * 60 + minute) * 60 + second) * 1000 + ms
    return day - zone * 60000

/-- An instant: a date, and a time if there is one. Years below 100 are those of the last
century. -/
def readInstant? (cs : List Char) : Option Instant := do
  let yearDigits := cs.takeWhile Char.isDigit
  if yearDigits.length ≠ 4 then none
  else
    let year ← natural? 10 yearDigits
    let (month, rest) ← someDigits? 2 (← after? '-' (cs.drop 4))
    let (day, rest) ← someDigits? 2 (← after? '-' rest)
    let time ← if rest.isEmpty then some 0 else timeOfDay? rest
    let year := if year < 100 then year + 1900 else year
    return Instant.dayOfDate year month day * 86400000 + time

/-- The tag that asks for instants. -/
def instantTag : String := commonTags ++ "timestamp"

/-- An instant. -/
def instant : ScalarKind :=
  ⟨instantTag, fun cs ↦ (readInstant? cs).map fun t ↦ ⟨.instant t, .plain⟩⟩

end ScalarKind

namespace Version

open ScalarKind

/-- The kinds of a version, in the order in which they are tried. -/
def kinds : Version → List ScalarKind
  | .v12 => [ScalarKind.null, ofWords "bool" (.bool true) ["true", "True", "TRUE"],
      ofWords "bool" (.bool false) ["false", "False", "FALSE"], based 8 "0o", int, based 16 "0x",
      special, exponential, decimal]
  | .v11 => [ScalarKind.null,
      ofWords "bool" (.bool true)
        ["Y", "y", "Yes", "yes", "YES", "True", "true", "TRUE", "On", "on", "ON"],
      ofWords "bool" (.bool false)
        ["N", "n", "No", "no", "NO", "False", "false", "FALSE", "Off", "off", "OFF"],
      groupedBased 2 "0b", groupedBased 8 "0", groupedInt, groupedBased 16 "0x", special,
      groupedExponential, groupedDecimal, sexagesimal "int" false, sexagesimal "float" true,
      instant]

/-- The symbol that stands for the key of a merge. -/
def mergeMark : Value := .symbol "<<"

/-- What a plain scalar without a tag is read as. In the earlier version `<<` is the key of a
merge. -/
def readPlain (version : Version) (isKey : Bool) (text : List Char) : Datum :=
  match version.kinds.findSome? (·.read? text) with
  | some datum => datum
  | none =>
    if version = .v11 && isKey && text = ['<', '<'] then ⟨mergeMark, .plain⟩
    else ⟨.text (String.ofList text), .plain⟩

/-- Whether a plain scalar is anything but a text. -/
def isTaken (version : Version) (text : List Char) : Bool :=
  version.kinds.any (fun kind ↦ (kind.read? text).isSome) ||
    (version = .v11 && text = ['<', '<'])

/-- What a scalar with a tag is read as. -/
def readTagged (version : Version) (tag : String) (text : List Char) : Except Fault Datum :=
  match (version.kinds.filter (·.tag == tag)).findSome? (·.read? text) with
  | some datum => .ok datum
  | none =>
    if tag = commonTags ++ "binary" then .ok ⟨.bytes (Text.Base64.decode text), .plain⟩
    else if tag = commonTags ++ "merge" && (version = .v12 || text = ['<', '<']) then
      .ok ⟨mergeMark, .plain⟩
    else if tag = instantTag && version = .v12 then match readInstant? text with
      | some t => .ok ⟨.instant t, .plain⟩
      | none => .error .tag
    else .ok ⟨.text (String.ofList text), .plain⟩

end Version

end ResourceLocator.Yaml
