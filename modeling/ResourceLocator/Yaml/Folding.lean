import ResourceLocator.Text.Units
import ResourceLocator.Yaml.ScalarText

/-!
# Breaking long scalars into lines

A scalar whose lines are too long is broken where one space stands between two words; when it is
read, the line end becomes that space again. A scalar in double quotes may also be broken inside a
word, after a backslash.

Lines are measured in units of the text. The places where a text is broken are found from left to
right: as soon as a line has reached its end, it is broken at the last space that allows it.
-/

namespace ResourceLocator.Yaml.Folding

/-- How long a line may be. -/
def lineWidth : Nat := 80

/-- How long a line may be at least, however far it is indented. -/
def leastWidth : Nat := 20

/-- A place where a text is broken. -/
structure Fold where
  /-- How many units come before it. The unit there is a space, which is dropped, or the last one
  before a backslash. -/
  place : Nat
  /-- Whether it is inside a word. -/
  isInWord : Bool
  deriving DecidableEq, Repr

/-- The folds of a text as far as it has been read. -/
structure Progress where
  /-- How many units have been read. -/
  place : Nat := 0
  /-- The unit before. -/
  last? : Option Nat := none
  /-- The last space of the line that allows a fold. -/
  space? : Option Nat := none
  /-- Where the line ends. -/
  lineEnd : Int
  /-- Where the last escape starts. -/
  escapeStart : Int := -1
  /-- Where the last escape ends. -/
  escapeEnd : Int := -1
  /-- The folds, the last one first. -/
  folds : List Fold := []

/-- Whether a unit is there and is neither a blank nor a line end. -/
def isSolid (unit? : Option Nat) : Bool :=
  unit?.any fun u ↦ u ≠ 0x20 && u ≠ 0x09 && u ≠ 0x0A

/-- How many units an escape has after its backslash. -/
def escapeSize (letter? : Option Nat) : Nat :=
  match letter?.map Char.ofNat with
  | some 'x' => 3
  | some 'u' => 5
  | some 'U' => 9
  | _ => 1

/-- The place, the unit there and the unit before, after blanks that end a line. -/
def skipBlanks (units : Array Nat) : Nat → Nat → Option Nat → Option Nat → Nat × Option Nat
  | 0, place, unit?, _ => (place, unit?)
  | fuel + 1, place, unit?, last? =>
    if last? == some 0x20 || last? == some 0x09 then
      skipBlanks units fuel (place + 1) units[place + 1]? unit?
    else (place, unit?)

/-- Reads a unit, or an escape, and adds the fold that it asks for. `step` is the length of the
lines after the first, and `inWords` says whether words may be broken. Where an escape is too long
for a line, there are no folds at all. -/
def next? (units : Array Nat) (indent step : Nat) (inWords : Bool) (s : Progress) (unit : Nat) :
    Option Progress :=
  let isEscape := inWords && unit == 0x5C
  let place := if isEscape then s.place + escapeSize units[s.place + 1]? else s.place
  let s := if isEscape then { s with escapeStart := s.place, escapeEnd := place } else s
  let onward : Progress := { s with place := place + 1, last? := some unit }
  if unit == 0x0A then some { onward with lineEnd := place + indent + step, space? := none }
  else
    let isBreak := unit == 0x20 && isSolid s.last? && isSolid units[place + 1]?
    let space? := if isBreak then some place else s.space?
    if (place : Int) < s.lineEnd then some { onward with space? }
    else match space? with
      | some space =>
        some { onward with
          folds := ⟨space, false⟩ :: s.folds, lineEnd := space + step, space? := none }
      | none =>
        if !inWords then some { onward with space? := none }
        else
          let (place, unit?) := skipBlanks units units.size place (some unit) s.last?
          let fold := (if s.escapeEnd + 1 < place then (place : Int) - 2
            else s.escapeStart - 1).toNat
          if s.folds.contains ⟨fold, true⟩ then none
          else some { s with
            place := place + 1, last? := unit?, space? := none, lineEnd := fold + step,
            folds := ⟨fold, true⟩ :: s.folds }

/-- The folds of a text from a place on. The first argument bounds the number of units. -/
def foldsFrom? (units : Array Nat) (indent step : Nat) (inWords : Bool) :
    Nat → Progress → Option (List Fold)
  | 0, s => some s.folds.reverse
  | fuel + 1, s => match units[s.place]? with
    | none => some s.folds.reverse
    | some unit => match next? units indent step inWords s unit with
      | some s => foldsFrom? units indent step inWords fuel s
      | none => none

/-- A text from a place on, broken at folds. -/
def breakFrom (units : Array Nat) (indent start : Nat) : List Fold → List Nat
  | [] => (units.extract start units.size).toList
  | fold :: folds =>
    let kept := if fold.isInWord then (units[fold.place]?).toList ++ [0x5C] else []
    let rest := if fold.place = 0 then 0 else fold.place + 1
    (units.extract start fold.place).toList ++ kept ++
      0x0A :: List.replicate indent 0x20 ++ breakFrom units indent rest folds

/-- A text broken into lines that are indented. `start?` is how much of the first line is taken,
where it is known, and `inWords` says whether words may be broken. -/
def fold (inWords : Bool) (indent : Nat) (start? : Option Nat) (text : List Char) : List Char :=
  let units := (text.flatMap Text.charUnits).toArray
  let step := max (1 + leastWidth) (1 + lineWidth - indent)
  if units.size ≤ step then text
  else
    let first : Progress := match start? with
      | none => { lineEnd := (lineWidth : Int) - indent }
      | some start =>
        if lineWidth < start + leastWidth then
          { lineEnd := (lineWidth : Int) - indent, folds := [⟨0, false⟩] }
        else { lineEnd := (lineWidth : Int) - start }
    match foldsFrom? units indent step inWords (units.size + 1) first with
    | none => text
    | some folds => ScalarText.ofCodes (breakFrom units indent 0 folds)

end ResourceLocator.Yaml.Folding
