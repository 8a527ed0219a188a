import EightBit.Cli.Execution
import EightBit.Noise.Source

/-!
# Running a program

A run of the file that a configuration names, with the generator that the noise after power-on comes
from.

## Main definitions

* `run`: a run of a program file.
-/

namespace EightBit.Cli

/-- Runs the configured program file, whose contents are `contents`, or `none` if it cannot be
read. -/
def run (c : RunConfig) (contents : Option (List UInt8)) (journal : Journal) :
    Except RunError Report × Journal :=
  match contents with
  | none => (.error (.unreadable c.romPath), journal)
  | some image => runImage c image (journal.note (.running c.romPath))

end EightBit.Cli
