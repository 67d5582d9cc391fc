import ResourceLocator.Number.Binary64

/-!
# The shortest decimal that reads back

The text of a number shows the fewest significant digits that no other number is nearer to,
and of those the nearest to the number. It is positional from a millionth up to 10 ^ 21 and
has an exponent beyond.
-/

namespace ResourceLocator.Number

/-- The quotient `num / den · 10 ^ (-p)`, rounded down, with the pair that it is a quotient of. -/
def onGrid (num den : Nat) (p : Int) : Nat × Nat × Nat :=
  let (n, d) := if p < 0 then (num * Nat.pow 10 (-p).toNat, den)
    else (num, den * Nat.pow 10 p.toNat)
  (n / d, n, d)

/-- `m · 2 ^ e` as a quotient of naturals. -/
def ratio (m : Nat) (e : Int) : Nat × Nat :=
  if e < 0 then (m, Nat.pow 2 (-e).toNat) else (m * Nat.pow 2 e.toNat, 1)

/-- Whether `c · 10 ^ p` is read as `mantissa · 2 ^ exponent`. -/
def readsBack (m : Nat) (e : Int) (c : Nat) (p : Int) : Bool :=
  ofDecimal false c p == .finite false m e

/-- The greatest `p` with `10 ^ p ≤ num / den`, searched downwards from `start`. -/
def decimalOrder (num den : Nat) : Nat → Int → Int
  | 0, p => p
  | fuel + 1, p => if (onGrid num den p).1 = 0 then decimalOrder num den fuel (p - 1) else p

/-- The digits `c` and the exponent `p` of the shortest `c · 10 ^ p` that reads back, among
decimals of `count` digits and more. -/
def shortestFrom (m : Nat) (e : Int) (order : Int) : Nat → Nat → Nat × Int
  | 0, count =>
    let p := order + 1 - count
    let (num, den) := ratio m e
    ((onGrid num den p).1, p)
  | fuel + 1, count =>
    let p := order + 1 - count
    let (num, den) := ratio m e
    let (c, n, d) := onGrid num den p
    -- Twice the remainder against the unit tells which neighbour is nearer.
    let up := d < 2 * (n % d) || (d == 2 * (n % d) && c % 2 == 1)
    let first := if up then c + 1 else c
    let second := if up then c else c + 1
    if readsBack m e first p then (first, p)
    else if readsBack m e second p then (second, p)
    else shortestFrom m e order fuel (count + 1)

/-- Digits without the zeros at their end, and the exponent raised by as many. -/
def stripZeros : Nat → Nat → Int → Nat × Int
  | 0, c, p => (c, p)
  | fuel + 1, c, p => if c % 10 = 0 && c ≠ 0 then stripZeros fuel (c / 10) (p + 1) else (c, p)

/-- The digits and the exponent of the shortest decimal of `m · 2 ^ e`, for a positive `m`. -/
def shortest (m : Nat) (e : Int) : Nat × Int :=
  let (num, den) := ratio m e
  let order := decimalOrder num den 800 330
  let (c, p) := shortestFrom m e order 17 1
  stripZeros 20 c p

/-- Digits with a point: `point` of them stand before it. -/
def positional (digits : List Char) (point : Int) : List Char :=
  if point ≤ 0 then '0' :: '.' :: List.replicate (-point).toNat '0' ++ digits
  else
    let n := point.toNat
    if digits.length ≤ n then digits ++ List.replicate (n - digits.length) '0'
    else digits.take n ++ '.' :: digits.drop n

/-- Digits with an exponent, whose sign is always written. -/
def scientific (digits : List Char) (exponent : Int) : List Char :=
  let mantissa := match digits with
    | d :: e :: ds => d :: '.' :: e :: ds
    | ds => ds
  mantissa ++ 'e' :: (if exponent < 0 then '-' else '+') :: Nat.toDigits 10 exponent.natAbs

/-- The text of a number. A zero is written without its sign. -/
def text : Number → String
  | .nan => "NaN"
  | .infinite negative => if negative then "-Infinity" else "Infinity"
  | .finite negative m e =>
    if m = 0 then "0"
    else
      let (c, p) := shortest m e
      let digits := Nat.toDigits 10 c
      let point : Int := p + digits.length
      let body :=
        if -6 < point && point ≤ 21 then positional digits point
        else scientific digits (point - 1)
      String.ofList (if negative then '-' :: body else body)

end ResourceLocator.Number
