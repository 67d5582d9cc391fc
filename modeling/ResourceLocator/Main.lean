import ResourceLocator.Description.World
import ResourceLocator.Program.Run

/-!
# The command line

The program runs in a world that is described on the standard input by a JSON record. The
arguments of the process are those of the user, after the program and the entry script that the
description gives. What the run writes is written, and its exit status is that of the process.
-/

namespace ResourceLocator

/-- Runs the program with some arguments in a described world. -/
def runDescribed (description : String) (args : List String) : Except String (World × Int) :=
  match Json.read? description with
  | some (.record fields) =>
    let world := Description.world fields
    let argv := world.argv[0]?.getD "" :: world.argv[1]?.getD "" :: args
    match Program.runProcess.runIn { world with argv } with
    | (.ok status, after) => .ok (after, status)
    | (.error _, after) => .ok (after, ExitCode.general.toInt)
  | _ => .error "the description of the world is no JSON record"

end ResourceLocator

/-- Runs the program. -/
def main (args : List String) : IO UInt32 := do
  let description ← (← IO.getStdin).readToEnd
  match ResourceLocator.runDescribed description args with
  | .error reason =>
    IO.eprintln reason
    return 1
  | .ok (world, status) =>
    IO.print world.effects.output
    IO.eprint world.effects.errors
    return UInt32.ofNat (status % 256).toNat
