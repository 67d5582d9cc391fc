/-!
# Binary floating point numbers

A number is an infinity, not a number, or `± mantissa · 2 ^ exponent` with a mantissa of at
most 53 bits. The finite ones are kept in one form: either the mantissa has exactly 53 bits,
or the exponent is the least one, -1074.

`Number.nearest` rounds a quotient of naturals to the nearest number, a tie going to the even
mantissa, and `Number.ofDecimal` reads a decimal with it.

Powers are written `Nat.pow`, so that no instance of `^` from an algebraic hierarchy takes part.
-/

namespace ResourceLocator

/-- A binary floating point number of 64 bits. -/
inductive Number where
  /-- Not a number. -/
  | nan
  /-- An infinity. -/
  | infinite (negative : Bool)
  /-- `± mantissa · 2 ^ exponent`. -/
  | finite (negative : Bool) (mantissa : Nat) (exponent : Int)
  deriving DecidableEq, Repr, Inhabited

namespace Number

/-- The zero without a sign. -/
def zero : Number := .finite false 0 (-1074)

/-- The quotient rounded to the nearest natural, a tie to the even one. -/
def roundDiv (num den : Nat) : Nat :=
  let q := num / den
  let r := num % den
  if 2 * r < den then q
  else if den < 2 * r then q + 1
  else q + q % 2

/-- `num / den · 2 ^ (-e)` as a quotient of naturals. -/
def scaled (num den : Nat) (e : Int) : Nat × Nat :=
  if e < 0 then (num * Nat.pow 2 (-e).toNat, den) else (num, den * Nat.pow 2 e.toNat)

/-- The number nearest to `± num / den`, for a positive `den`. -/
def nearest (negative : Bool) (num den : Nat) : Number :=
  if num = 0 then .finite negative 0 (-1074)
  else
    -- The quotient has 53 or 54 bits before the point at this exponent.
    let guess : Int := (Nat.log2 num : Int) - (Nat.log2 den : Int) - 53
    let bits := fun e : Int ↦ let (n, d) := scaled num den e; n / d
    let e : Int := if bits guess < Nat.pow 2 53 then guess else guess + 1
    let e : Int := if e < -1074 then -1074 else e
    let (n, d) := scaled num den e
    let m := roundDiv n d
    let (m, e) := if m = Nat.pow 2 53 then (Nat.pow 2 52, e + 1) else (m, e)
    if 971 < e then .infinite negative else .finite negative m e

/-- How many decimal digits a natural has. -/
def digitCount (n : Nat) : Nat := (Nat.toDigits 10 n).length

/-- The number nearest to `± digits · 10 ^ exponent`. Exponents beyond the range of the finite
numbers are settled without raising ten to them. -/
def ofDecimal (negative : Bool) (digits : Nat) (exponent : Int) : Number :=
  if digits = 0 then .finite negative 0 (-1074)
  else
    let top : Int := exponent + digitCount digits
    if 400 < top then .infinite negative
    else if top < -400 then .finite negative 0 (-1074)
    else if exponent < 0 then nearest negative digits (Nat.pow 10 (-exponent).toNat)
    else nearest negative (digits * Nat.pow 10 exponent.toNat) 1

/-- The number nearest to an integer. -/
def ofInt (i : Int) : Number := nearest (i < 0) i.natAbs 1

/-- The value of a number as an integer, if it is one. -/
def toInt? : Number → Option Int
  | .finite negative m e =>
    let magnitude? : Option Nat :=
      if 0 ≤ e then some (m * Nat.pow 2 e.toNat)
      else if m % Nat.pow 2 (-e).toNat = 0 then some (m / Nat.pow 2 (-e).toNat)
      else none
    magnitude?.map fun n ↦ if negative then -(n : Int) else n
  | _ => none

/-- Equality as numbers: nothing equals not-a-number, and the two zeros are equal. -/
def same : Number → Number → Bool
  | .finite s m e, .finite t n f => (m == 0 && n == 0) || (s == t && m == n && e == f)
  | .infinite s, .infinite t => s == t
  | _, _ => false

end Number

end ResourceLocator
