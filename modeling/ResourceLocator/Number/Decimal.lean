import ResourceLocator.Number.Binary64
import ResourceLocator.Text.Blank

/-!
# Reading numbers

A decimal is a sign, digits around a point, and an exponent; the sign, the point, the exponent and
the digits on one side of the point may be missing. `Number.ofText` reads any text as a number: a
blank text is zero, and a text that is written like no number is not-a-number.
-/

namespace ResourceLocator.Number

/-- The value of a digit, hexadecimal digits included. -/
def digitValue? (c : Char) : Option Nat :=
  if c.isDigit then some (c.toNat - 0x30)
  else if 'a' ≤ c && c ≤ 'f' then some (c.toNat - 0x57)
  else if 'A' ≤ c && c ≤ 'F' then some (c.toNat - 0x37)
  else none

/-- A text without its sign, and whether it is negative. -/
def takeSign : List Char → Bool × List Char
  | '-' :: rest => (true, rest)
  | '+' :: rest => (false, rest)
  | cs => (false, cs)

/-- The natural number that is written in a base by one or more digits. -/
def natural? (base : Nat) (cs : List Char) : Option Nat :=
  if cs.isEmpty then none
  else cs.foldl (fun n? c ↦ match n?, digitValue? c with
    | some n, some d => if d < base then some (n * base + d) else none
    | _, _ => none) (some 0)

/-- The integer that is written by a sign, if there is one, and decimal digits. -/
def integer? (cs : List Char) : Option Int :=
  let (negative, digits) := takeSign cs
  (natural? 10 digits).map fun n ↦ if negative then -(n : Int) else n

/-- The number that is written as a decimal. -/
def decimal? (cs : List Char) : Option Number := do
  let (negative, cs) := takeSign cs
  let (whole, cs) := cs.span Char.isDigit
  let (fraction, cs) := match cs with
    | '.' :: rest => rest.span Char.isDigit
    | cs => ([], cs)
  let digits ← natural? 10 (whole ++ fraction)
  let shift := -(fraction.length : Int)
  match cs with
  | [] => some (.ofDecimal negative digits shift)
  | e :: rest =>
    if e == 'e' || e == 'E' then
      return .ofDecimal negative digits (shift + (← integer? rest))
    else none

/-- The number that is written in a base other than ten, after a zero and a letter for the
base. -/
def based? : List Char → Option Number
  | '0' :: letter :: digits =>
    let base? := match letter.toLower with
      | 'b' => some 2
      | 'o' => some 8
      | 'x' => some 16
      | _ => none
    base?.bind fun base ↦ (natural? base digits).map fun n ↦ .nearest false n 1
  | _ => none

/-- The number that a text is read as; blanks around it do not count. -/
def ofText (s : String) : Number :=
  let cs := Text.trim s.toList
  if cs.isEmpty then .zero
  else
    let (negative, rest) := takeSign cs
    if String.ofList rest = "Infinity" then .infinite negative
    else ((based? cs).or (decimal? cs)).getD .nan

/-- Whether a number is at least one. -/
def isAtLeastOne : Number → Bool
  | .nan => false
  | .infinite negative => !negative
  | .finite negative m e => !negative && m != 0 && 0 ≤ (Nat.log2 m : Int) + e

end ResourceLocator.Number
