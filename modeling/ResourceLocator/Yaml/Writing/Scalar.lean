import ResourceLocator.Number.Shortest
import ResourceLocator.Yaml.Quoting

/-!
# Writing scalars

Scalars keep much of how they were written: numbers their base and the zeros at their end, words
their spelling, texts their quotes. A tag that a text does not follow still shows.
-/

namespace ResourceLocator.Yaml.Writing

open Quoting (Spot)

/-! ### Numbers -/

/-- A number as texts show it; a zero keeps its sign. -/
def numberText (n : Number) : List Char :=
  match n with
  | .nan => ".nan".toList
  | .infinite negative => (if negative then "-.inf" else ".inf").toList
  | .finite true 0 _ => "-0".toList
  | n => n.text.toList

/-- A number with at least so many digits after the point, unless it has an exponent. -/
def withDecimals (count : Nat) (n : Number) : List Char :=
  let text := numberText n
  match n with
  | .finite .. =>
    if text.contains 'e' then text
    else
      let fraction := (text.dropWhile (· ≠ '.')).drop 1
      text ++ (if text.contains '.' then [] else ['.']) ++
        List.replicate (count - fraction.length) '0'
  | _ => text

/-- A number with an exponent. -/
def withExponent (n : Number) : List Char :=
  match n with
  | .finite _ 0 _ => "0e+0".toList
  | .finite negative m e =>
    let (c, p) := Number.shortest m e
    let digits := Nat.toDigits 10 c
    let body := Number.scientific digits (p + digits.length - 1)
    if negative then '-' :: body else body
  | n => numberText n

/-- A whole number in a base, after what stands before its digits. -/
def inBase (base : Nat) (lead : String) (n : Number) : List Char :=
  match n.toInt? with
  | some i =>
    (if i < 0 then ['-'] else []) ++ lead.toList ++ Nat.toDigits base i.natAbs
  | none => numberText n

/-- A text up to six zeros after which only digits come. -/
def upToNoise : List Char → List Char
  | [] => []
  | c :: rest =>
    if (c :: rest).all Char.isDigit && (List.replicate 6 '0').isPrefixOf (c :: rest) then []
    else c :: upToNoise rest

/-- A number in base 60, with at least two digits for each place. -/
def inBase60 (n : Number) : List Char :=
  match n with
  | .finite negative m e =>
    let (num, den) := Number.ratio m e
    let minutes := num / (60 * den)
    let seconds := (Number.nearest false (num % (60 * den)) den).text.toList
    let padded := List.replicate (2 - seconds.length) '0' ++ seconds
    let places := if minutes < 60 then [minutes] else [minutes / 60, minutes % 60]
    let body := places.flatMap (fun place ↦ Instant.padded 2 place ++ [':']) ++ padded
    (if negative && m ≠ 0 then ['-'] else []) ++ upToNoise body
  | n => numberText n

/-- A number in its form. -/
def number (form : NumberForm) (n : Number) : List Char :=
  match form with
  | .plain => numberText n
  | .decimals count => withDecimals count n
  | .exponent => withExponent n
  | .based base lead => inBase base lead n
  | .sexagesimal => inBase60 n

/-! ### Scalars -/

/-- An instant. A time at midnight and a zero at the end are left out. -/
def instant (t : Instant) : List Char :=
  let stamp := t.timestamp
  if "T00:00:00.000Z".toList.isSuffixOf stamp then stamp.take (stamp.length - 14)
  else if ".000Z".toList.isSuffixOf stamp then stamp.take (stamp.length - 5)
  else stamp

/-- A text in pieces of one size. The first argument bounds their number. -/
def chunks (size : Nat) : Nat → List Char → List (List Char)
  | 0, _ => []
  | fuel + 1, cs => if cs.isEmpty then [] else cs.take size :: chunks size fuel (cs.drop size)

/-- Bytes, in lines. -/
def bytes (spot : Spot) (style : Style) (bs : List UInt8) : List Char :=
  let encoded := Text.Base64.encode bs
  let width := max (Folding.lineWidth - spot.indent) Folding.leastWidth
  let lines := chunks width encoded.length encoded
  let text := match style with
    | .double => encoded
    | .block => ['\n'].intercalate lines
    | _ => [' '].intercalate lines
  Quoting.write (fun _ ↦ false) spot style text

/-- A text whose tag asks for a number. -/
def asNumber (text : List Char) : List Char :=
  match Number.ofText (String.ofList text) with
  | .finite .. => '"' :: text.flatMap Json.escapeChar ++ ['"']
  | n => numberText n

/-- A scalar that has been read as a text. A tag that asks for something else is heeded as far as
that goes. -/
def text (doc : Document) (spot : Spot) (tag? : Option String) (style : Style)
    (text : List Char) : List Char :=
  let version := doc.directives.version
  let isTag := fun tags : List String ↦ tags.any fun tag ↦ tag? = some (commonTags ++ tag)
  let isKnown := tag?.any doc.knows
  if isTag ["int", "float"] then asNumber text
  else if isTag ["bool"] then (if text.isEmpty then "false" else "true").toList
  else if isTag ["null"] then "null".toList
  else if (isTag ["merge"] && isKnown) ||
      (version = .v11 && !isTag ["str"] && !isKnown && text = ['<', '<']) then ['<', '<']
  else
    let isTaken := if isTag ["map", "seq"] || isKnown then fun _ ↦ false else version.isTaken
    Quoting.write isTaken spot style text

/-- A scalar. -/
def scalar (doc : Document) (spot : Spot) (tag? : Option String) (s : Scalar) : List Char :=
  match s.datum.value with
  | .text _ => text doc spot tag? s.style s.text
  | .number n => number s.datum.form n
  | .bytes bs => bytes spot s.style bs
  | .instant t => instant t
  | .symbol name => name.toList
  -- Null and the truth values keep their spelling.
  | _ => s.text

end ResourceLocator.Yaml.Writing
