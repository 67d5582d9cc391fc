import ResourceLocator.Log.Paint
import ResourceLocator.Session

/-!
# The console log

Messages go to the standard error, each with its level and in the colour of its level, and only
if their level passes the threshold. Results go to the standard output, one to a line.
-/

namespace ResourceLocator.Console

/-- The colour of a level. -/
def colourOf : Level → Colour
  | .debug => .gray
  | .info => .blue
  | .warn => .yellow
  | .error => .red

/-- The tag of a level. -/
def tagOf : Level → String
  | .debug => "[DEBUG] "
  | .info => "[INFO] "
  | .warn => "[WARN] "
  | .error => "[ERROR] "

/-- A text in a colour, if the console shows colours. -/
def paint (hasColours : Bool) (colour : Colour) (text : String) : String :=
  if hasColours then colour.paint text else text

/-- Sets the threshold. -/
def setThreshold (level : Level) : Session Unit :=
  modify fun w ↦ { w with threshold := level }

/-- Logs a message. -/
def log (level : Level) (message : String) : Session Unit := do
  let w ← get
  if level.passes w.threshold then
    Session.printError (paint w.hasColours (colourOf level) (tagOf level ++ message) ++ "\n")

/-- Writes a line of the result. -/
def output (line : String) : Session Unit :=
  Session.print (line ++ "\n")

/-- Writes a label and a value, which is white unless it has another colour. -/
def status (label value : String) (colour : Colour := .white) : Session Unit := do
  let w ← get
  output (paint w.hasColours .gray label ++ ": " ++ paint w.hasColours colour value)

end ResourceLocator.Console
