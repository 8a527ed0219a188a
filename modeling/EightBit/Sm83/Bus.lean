import EightBit.Bus
import EightBit.FlatBus
import EightBit.Sm83.Interrupt

/-!
# The surroundings of an SM83

Besides memory the SM83 sees interrupt requests: a request register and an enable register at fixed
addresses. Devices that advance with time do so when told how many T-cycles have passed; the
processor never does that itself.

## Main definitions

* `Bus`: what an SM83 is connected to.
* `requestAddress`, `enableAddress`, `joypadAddress`: the registers the processor itself looks at.
-/

namespace EightBit.Sm83

/-- The address of the interrupt request register. -/
def requestAddress : UInt16 := 0xFF0F

/-- The address of the interrupt enable register. -/
def enableAddress : UInt16 := 0xFFFF

/-- The address of the joypad register, which is watched while the processor is stopped. -/
def joypadAddress : UInt16 := 0xFF00

/-- What an SM83 is connected to. Only memory and notices have to be there; without more, nothing
happens as time passes, and requests are bits of memory. -/
class Bus (β : Type) extends Addressable β where
  /-- Lets a number of T-cycles pass. -/
  tick : Nat → β → β := fun _ bus => bus
  /-- Requests interrupts. -/
  requestInterrupt : Interrupts → β → β := fun i bus =>
    write bus requestAddress (read bus requestAddress ||| i.bits)
  /-- The interrupts that are both requested and enabled. -/
  pendingInterrupts : β → Interrupts := fun bus =>
    .ofBits (read bus enableAddress &&& read bus requestAddress)

export Bus (tick requestInterrupt pendingInterrupts)

instance : Bus FlatBus where

end EightBit.Sm83
