import EightBit.Journal
import EightBit.Word

/-!
# What a processor is connected to

A processor sees its surroundings as `2 ^ 16` addresses to read and write, and reports notices to
them. Reading changes nothing. Each processor adds the lines of its own to this interface.

## Main definitions

* `Addressable`: a state with readable and writable addresses.
* `readWord`, `writeWord`: a word in memory, the low byte first.
* `pushWord`: the writes of a word onto a stack that grows downwards.
-/

namespace EightBit

/-- A state of type `β` with readable and writable addresses. -/
class Addressable (β : Type) where
  /-- The byte at an address. -/
  read : β → UInt16 → UInt8
  /-- Stores a byte at an address, with whatever effect the device there gives it. -/
  write : β → UInt16 → UInt8 → β
  /-- Takes a notice. -/
  note : Notice → β → β

export Addressable (read write note)

variable {β : Type} [Addressable β]

/-- The word at an address, the low byte first. -/
@[inline] def readWord (bus : β) (a : UInt16) : UInt16 :=
  word (read bus (a + 1)) (read bus a)

/-- Stores a word at an address, the low byte first in memory and in time. -/
@[inline] def writeWord (bus : β) (a : UInt16) (w : UInt16) : β :=
  write (write bus a (loByte w)) (a + 1) (hiByte w)

/-- Stores a word below the stack pointer `sp`: first the upper byte at `sp - 1`, then the lower at
`sp - 2`, so that it stands in memory the low byte first. -/
@[inline] def pushWord (bus : β) (sp : UInt16) (w : UInt16) : β :=
  write (write bus (sp - 1) (hiByte w)) (sp - 2) (loByte w)

end EightBit
