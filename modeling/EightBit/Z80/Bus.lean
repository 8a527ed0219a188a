import EightBit.Bus

/-!
# The surroundings of a Z80

Besides memory the Z80 sees device ports with addresses of their own, and two interrupt lines: a
latched one that cannot be masked, and a level that can. When it accepts the latter, the device
puts a byte on the data lines.

## Main definitions

* `Bus`: what a Z80 is connected to.
-/

namespace EightBit.Z80

/-- What a Z80 is connected to. Only memory and notices have to be there; without more, no device
answers and no interrupt arises. -/
class Bus (β : Type) extends Addressable β where
  /-- Lets a number of T-cycles pass. -/
  tick : Nat → β → β := fun _ bus => bus
  /-- Takes a byte from a device. The upper half of the address is the register that the
  instruction puts there. -/
  portIn : β → UInt16 → UInt8 × β := fun bus _ => (0xFF, bus)
  /-- Gives a byte to a device. -/
  portOut : β → UInt16 → UInt8 → β := fun bus _ _ => bus
  /-- The level of the maskable interrupt line. -/
  intLine : β → Bool := fun _ => false
  /-- Whether a non-maskable interrupt is latched; looking clears the latch. -/
  takeNmi : β → Bool × β := fun bus => (false, bus)
  /-- Tells the devices that an interrupt is accepted: the byte that one of them puts on the data
  lines. -/
  acknowledge : β → UInt8 × β := fun bus => (0xFF, bus)

export Bus (portIn portOut intLine takeNmi acknowledge)

end EightBit.Z80
