import ResourceLocator.Text.Units

/-!
# Suggestions for mistyped words

The distance of two words is the least number of insertions, deletions, replacements and swaps
of neighbours that lead from one to the other, no place being changed twice. Those of the
candidates are suggested that are nearest to a word, if they are near enough: at most three
changes away, and with more than two fifths of the longer word unchanged.

Words that begin with two dashes are compared, and candidates too, without their first two
characters.
-/

namespace ResourceLocator.CommandLine.Suggestion

/-- The distances that an entry of the table is made of: to the left, above, and diagonally. -/
def leastChange (left above diagonal : Nat) (isSame : Bool) : Nat :=
  min (min (left + 1) (above + 1)) (if isSame then diagonal else diagonal + 1)

/-- The rest of a row of the table of distances. `previous` and `before` are the two rows above
it, from the column to the left of the next entry on, and `before` from one further left. -/
def fillRow (x : Nat) (lastX? : Option Nat) :
    List Nat → Option Nat → Nat → List Nat → List Nat → List Nat
  | [], _, _, _, _ => []
  | y :: ys, lastY?, left, previous, before =>
    let diagonal := previous.headD 0
    let above := previous.tail.headD 0
    let plain := leastChange left above diagonal (x == y)
    let entry :=
      if lastX? == some y && lastY? == some x then min plain (before.headD 0 + 1) else plain
    let before := if lastY?.isSome then before.tail else before
    entry :: fillRow x lastX? ys (some y) entry previous.tail before

/-- The last row of the table of distances; `count` rows are done, the last two of which are
`previous` and `before`. -/
def lastRow (ys : List Nat) : List Nat → Nat → Option Nat → List Nat → List Nat → List Nat
  | [], _, _, previous, _ => previous
  | x :: xs, count, lastX?, previous, before =>
    let row := (count + 1) :: fillRow x lastX? ys none (count + 1) previous before
    lastRow ys xs (count + 1) (some x) row previous

/-- The distance of two words. -/
def distance (xs ys : List Nat) : Nat :=
  ((lastRow ys xs 0 none (List.range (ys.length + 1)) []).getLast?).getD 0

/-- The greatest distance of a suggestion. -/
def maxDistance : Nat := 3

/-- The distance of a candidate that is near enough to a word. -/
def nearness? (word candidate : List Nat) : Option Nat :=
  let longer := max word.length candidate.length
  let apart := (word.length - candidate.length) + (candidate.length - word.length)
  if candidate.length ≤ 1 || maxDistance < apart then none
  else
    let d := distance word candidate
    if d ≤ maxDistance && 2 * longer < 5 * (longer - d) then some d else none

/-- The nearest of the candidates that are near enough, in the order of their units. -/
def nearest (word : List Nat) (candidates : List String) : List String :=
  let near := candidates.filterMap fun c ↦ (nearness? word (Text.units c)).map (c, ·)
  let best := near.foldl (fun d p ↦ min d p.2) maxDistance
  Text.sortNames ((near.filter (·.2 == best)).map (·.1))

/-- The candidates that a word may have been meant for. -/
def similar (word : String) (candidates : List String) : List String :=
  let drop := fun s : String ↦ String.ofList (s.toList.drop 2)
  if "--".toList.isPrefixOf word.toList then
    (nearest (Text.units (drop word)) (candidates.map drop)).map ("--" ++ ·)
  else nearest (Text.units word) candidates

/-- The question that follows a complaint about a word. -/
def question (word : String) (candidates : List String) : String :=
  match similar word candidates with
  | [] => ""
  | [one] => "\n(Did you mean " ++ one ++ "?)"
  | many => "\n(Did you mean one of " ++ String.intercalate ", " many ++ "?)"

end ResourceLocator.CommandLine.Suggestion
