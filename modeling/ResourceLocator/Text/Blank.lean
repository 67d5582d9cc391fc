import ResourceLocator.Text.Pieces

/-!
# Blank characters

The blanks are the tab, the line terminators, the space and the other characters of the
Unicode category of spaces, the no-break space and the byte order mark among them. A zero
width space is not a blank.

`trim` drops the blanks at both ends of a text, and `words` lists what stands between the
stretches of blanks that are left.
-/

namespace ResourceLocator.Text

/-- The blank characters. -/
def isBlank (c : Char) : Bool :=
  let n := c.toNat
  (9 ≤ n && n ≤ 13) || n == 0x20 || n == 0xA0 || n == 0x1680 || (0x2000 ≤ n && n ≤ 0x200A) ||
    n == 0x2028 || n == 0x2029 || n == 0x202F || n == 0x205F || n == 0x3000 || n == 0xFEFF

/-- A text without the blanks at its end. -/
def trimEnd (cs : List Char) : List Char :=
  (cs.reverse.dropWhile isBlank).reverse

/-- A text without the blanks at its ends. -/
def trim (cs : List Char) : List Char :=
  trimEnd (cs.dropWhile isBlank)

/-- The words of a text: what it is cut into at its stretches of blanks, those at its ends left
out. A text of blanks has none. -/
def words (s : String) : List String :=
  match trim s.toList with
  | [] => []
  | cs => (cut isBlank cs).map String.ofList

end ResourceLocator.Text
