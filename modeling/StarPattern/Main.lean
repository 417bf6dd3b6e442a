/-
**The program.**

Writes what the outcome says, and returns its status.
-/
import StarPattern.CommandLine

set_option relaxedAutoImplicit false
set_option autoImplicit false

namespace StarPattern

/-- A run of the program in a setting: one outcome for its arguments, of which the first is its
name.  A fault that ends the run is written with its class. -/
def CommandLine.Setting.run (setting : Setting) (arguments : List String) : IO UInt32 := do
  match setting.respond (arguments.map String.toList) with
  | .ok outcome =>
    IO.print (String.ofList outcome.stdout)
    IO.eprint (String.ofList outcome.stderr)
    return outcome.status.toUInt32
  | .error fault =>
    IO.eprintln (String.ofList
      (fault.className ++ (": ".toList ++ fault.message setting.repertoire)))
    return 1

end StarPattern
