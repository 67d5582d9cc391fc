import ResourceLocator.Log.Console
import ResourceLocator.Proofs.Session

/-!
# Showing something on the console

Nothing that is shown on the console can fail, and so no command fails once it has its result.
-/

namespace ResourceLocator.Console

open Session

theorem succeeds_printError (text : String) : Succeeds (printError text) := failsOnly_modify _

theorem succeeds_setThreshold (level : Level) : Succeeds (setThreshold level) := failsOnly_modify _

theorem succeeds_log (level : Level) (message : String) : Succeeds (log level message) :=
  failsOnly_get.bind fun _ ↦ .ite (succeeds_printError _) (failsOnly_pure _)

theorem succeeds_output (line : String) : Succeeds (output line) := failsOnly_modify _

theorem succeeds_status (label value : String) (colour : Colour) :
    Succeeds (status label value colour) :=
  failsOnly_get.bind fun _ ↦ succeeds_output _

end ResourceLocator.Console
