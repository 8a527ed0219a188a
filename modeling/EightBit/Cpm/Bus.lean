import EightBit.Memory
import EightBit.Z80.Bus

/-!
# The bus of a CP/M machine

Memory at every address, and the console that the operating system prints on. No device answers at
a port and no interrupt arises.

## Main definitions

* `Bus`: memory and the console.
-/

namespace EightBit.Cpm

/-- Memory and the console. -/
structure Bus where
  memory : Memory
  /-- The bytes printed so far, the first one first. -/
  console : Array UInt8
  journal : Journal

namespace Bus

/-- Empty memory and an empty console. -/
def create (journal : Journal) : Bus where
  memory := .blank
  console := #[]
  journal := journal

/-- Changes memory. -/
@[inline] def mapMemory (bus : Bus) (f : Memory → Memory) : Bus :=
  { bus with memory := f bus.memory }

/-- Prints a byte. -/
@[inline] def print (bus : Bus) (b : UInt8) : Bus :=
  { bus with console := bus.console.push b }

/-- Adds a notice. -/
@[inline] def note (bus : Bus) (n : Notice) : Bus :=
  { bus with journal := bus.journal.note n }

instance : Addressable Bus where
  read bus a := bus.memory.read a
  write bus a b := bus.mapMemory (·.write a b)
  note n bus := bus.note n

instance : Z80.Bus Bus where

end Bus

end EightBit.Cpm
