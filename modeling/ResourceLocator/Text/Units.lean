/-!
# Text in 16-bit units

A character outside the basic plane counts as two units, the halves of its surrogate pair.
Lengths that users see are counted in units, and names are listed in the order of their
units, which differs from the order of code points: the halves of a pair come before the
characters from U+E000 to U+FFFF.
-/

namespace ResourceLocator.Text

/-- The units of a character: itself, or the two halves of its surrogate pair. -/
def charUnits (c : Char) : List Nat :=
  let n := c.toNat
  if n < 0x10000 then [n]
  else [0xD800 + (n - 0x10000) / 0x400, 0xDC00 + (n - 0x10000) % 0x400]

/-- The units of a text. -/
def units (s : String) : List Nat :=
  s.toList.flatMap charUnits

/-- How many units characters have. -/
def unitCount (cs : List Char) : Nat := (cs.flatMap charUnits).length

/-- The first characters of a text, at most `n` units of them; of a character that is cut in two,
U+FFFD stands for the first half. -/
def takeUnits : Nat → List Char → List Char
  | 0, _ => []
  | _, [] => []
  | n + 1, c :: cs =>
    if (charUnits c).length = 1 then c :: takeUnits n cs
    else match n with
      | 0 => ['\ufffd']
      | n + 1 => c :: takeUnits n cs

/-- The order of unit lists: by the first unit that differs, a shorter list first. -/
def unitsLt : List Nat → List Nat → Bool
  | [], [] => false
  | [], _ :: _ => true
  | _ :: _, [] => false
  | a :: as, b :: bs => a < b || (a == b && unitsLt as bs)

/-- Insertion into a list of names that increases in the order of units; a name already
there is not added again. -/
def insertName (s : String) : List String → List String
  | [] => [s]
  | t :: ts =>
    if unitsLt (units s) (units t) then s :: t :: ts
    else if unitsLt (units t) (units s) then t :: insertName s ts
    else t :: ts

/-- The distinct names of a list in the order of their units. -/
def sortNames (names : List String) : List String :=
  names.foldr insertName []

end ResourceLocator.Text
