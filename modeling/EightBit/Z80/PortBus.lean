import EightBit.FlatBus
import EightBit.Z80.Bus

/-!
# Plain memory with scripted devices

Surroundings of a Z80 whose devices follow a script: the bytes they will supply are known in
advance, and the interrupt lines are set from outside. A second, poorer form has memory and the
maskable interrupt line only.

## Main definitions

* `PortBus`: memory, a queue of bytes to be taken, and the interrupt lines.
* `LineBus`: memory and the maskable interrupt line.
-/

namespace EightBit.Z80

/-- Memory with scripted devices. -/
structure PortBus where
  flat : FlatBus
  /-- The bytes the devices will supply, whichever is asked; then they supply ones. -/
  inputs : List UInt8
  /-- A non-maskable interrupt is latched. -/
  nmi : Bool
  /-- The level of the maskable interrupt line. -/
  int : Bool
  /-- The byte supplied when a maskable interrupt is accepted. -/
  ack : UInt8

namespace PortBus

/-- Memory with devices that have nothing to say yet. -/
def ofFlat (flat : FlatBus) : PortBus where
  flat := flat
  inputs := []
  nmi := false
  int := false
  ack := 0xFF

/-- Changes the memory. -/
@[inline] def mapFlat (bus : PortBus) (f : FlatBus → FlatBus) : PortBus :=
  { bus with flat := f bus.flat }

/-- The next byte of a queue, and what is left of it. -/
def dequeue : List UInt8 → UInt8 × List UInt8
  | [] => (0xFF, [])
  | b :: bs => (b, bs)

instance : Addressable PortBus where
  read bus a := read bus.flat a
  write bus a b := { bus with flat := write bus.flat a b }
  note n bus := { bus with flat := note n bus.flat }

instance : Bus PortBus where
  portIn bus device :=
    let (b, rest) := dequeue bus.inputs
    (b, { bus with inputs := rest, flat := bus.flat.record (.received device b) })
  portOut bus device b := bus.mapFlat (·.record (.sent device b))
  intLine bus := bus.int
  takeNmi bus := (bus.nmi, { bus with nmi := false })
  acknowledge bus := (bus.ack, bus)

end PortBus

/-- Memory with a maskable interrupt line and nothing else. -/
structure LineBus where
  flat : FlatBus
  /-- The level of the maskable interrupt line. -/
  int : Bool

namespace LineBus

instance : Addressable LineBus where
  read bus a := read bus.flat a
  write bus a b := { bus with flat := write bus.flat a b }
  note n bus := { bus with flat := note n bus.flat }

instance : Bus LineBus where
  intLine bus := bus.int

end LineBus

end EightBit.Z80
