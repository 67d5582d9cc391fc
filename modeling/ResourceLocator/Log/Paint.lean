/-!
# Painted text

A colour is switched on by a code before a text and off by a code after it. A text may hold
the closing code already, from a colour inside it: the outer colour is switched on again
there. It is switched off before every line end and on again after it. Nothing is written
around an empty text.
-/

namespace ResourceLocator

/-- A colour of the terminal. -/
inductive Colour where
  /-- For labels and details. -/
  | gray
  /-- For information. -/
  | blue
  /-- For warnings. -/
  | yellow
  /-- For errors. -/
  | red
  /-- For values that are set. -/
  | green
  /-- For other values. -/
  | white
  deriving DecidableEq, Repr

namespace Colour

/-- The number of the code that switches a colour on. -/
def number : Colour → List Char
  | .gray => ['9', '0']
  | .blue => ['3', '4']
  | .yellow => ['3', '3']
  | .red => ['3', '1']
  | .green => ['3', '2']
  | .white => ['3', '7']

/-- The code that switches a colour on. -/
def opening (c : Colour) : List Char := ['\x1b', '['] ++ c.number ++ ['m']

/-- The code that switches every colour off. -/
def closing : List Char := ['\x1b', '[', '3', '9', 'm']

/-- Switches a colour on again after every closing code. -/
def reopen (c : Colour) : List Char → List Char
  | '\x1b' :: '[' :: '3' :: '9' :: 'm' :: rest => closing ++ c.opening ++ reopen c rest
  | x :: rest => x :: reopen c rest
  | [] => []

/-- Switches a colour off around every line end. -/
def aroundLineEnds (c : Colour) : List Char → List Char
  | '\r' :: '\n' :: rest => closing ++ ['\r', '\n'] ++ c.opening ++ aroundLineEnds c rest
  | '\n' :: rest => closing ++ '\n' :: c.opening ++ aroundLineEnds c rest
  | x :: rest => x :: aroundLineEnds c rest
  | [] => []

/-- A text in a colour. -/
def paint (c : Colour) (s : String) : String :=
  if s = "" then ""
  else String.ofList (c.opening ++ c.aroundLineEnds (c.reopen s.toList) ++ closing)

end Colour

end ResourceLocator
