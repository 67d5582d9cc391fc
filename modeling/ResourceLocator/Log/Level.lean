/-!
# Log levels

The levels of the console log, in order of weight: a message is shown when its level weighs
at least as much as the threshold.
-/

namespace ResourceLocator

/-- A level of the console log. -/
inductive Level where
  /-- For those who look for faults. -/
  | debug
  /-- For everybody. -/
  | info
  /-- Something is odd. -/
  | warn
  /-- Something is wrong. -/
  | error
  deriving DecidableEq, Repr, Inhabited

namespace Level

/-- The levels, the lightest first. -/
def all : List Level := [.debug, .info, .warn, .error]

/-- The name of a level. -/
def name : Level → String
  | .debug => "debug"
  | .info => "info"
  | .warn => "warn"
  | .error => "error"

/-- The level of a name. -/
def ofName? (s : String) : Option Level :=
  all.find? (·.name == s)

/-- How much a level weighs. -/
def weight : Level → Nat
  | .debug => 0
  | .info => 1
  | .warn => 2
  | .error => 3

/-- Whether a message of a level is shown at a threshold. -/
def passes (level threshold : Level) : Bool :=
  threshold.weight ≤ level.weight

theorem ofName?_name (level : Level) : ofName? level.name = some level := by
  cases level <;> decide

end Level

end ResourceLocator
