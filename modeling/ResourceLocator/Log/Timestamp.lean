import ResourceLocator.Instant

/-!
# Timestamps of the debug log

The debug log shows an instant by parts of its timestamp: a time of day before a line on the
console, and a date with the time in the name of a file.
-/

namespace ResourceLocator.Instant

/-- The part of a timestamp that stands before a line on the console. -/
def clockTime (t : Instant) : List Char :=
  ((timestamp t).drop 11).take 12

/-- The part of a timestamp that stands in a file name, without colons and points. -/
def fileStamp (t : Instant) : List Char :=
  ((timestamp t).map fun c ↦ if c = ':' || c = '.' then '-' else c).take 19

end ResourceLocator.Instant
