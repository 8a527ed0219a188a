import EightBit.Bus
import EightBit.Memory

/-!
# Plain memory with a record of what was done to it

The simplest surroundings of a processor: every address is memory, nothing else is connected, and
each access that another device could notice is recorded.

## Main definitions

* `BusEvent`, `BusEvent.text`: a write, or a transfer through a device port.
* `FlatBus`: memory and the events so far.
-/

namespace EightBit

/-- An access that a connected device could notice. -/
inductive BusEvent
  /-- A byte was written to memory. -/
  | wrote (address : UInt16) (value : UInt8)
  /-- A byte was taken from a device. -/
  | received (device : UInt16) (value : UInt8)
  /-- A byte was given to a device. -/
  | sent (device : UInt16) (value : UInt8)
  deriving DecidableEq

namespace BusEvent

/-- An event as listings print it. -/
def text : BusEvent → String
  | wrote a v => Hex.word a ++ "=" ++ Hex.byte v
  | received p v => "I" ++ Hex.word p ++ "=" ++ Hex.byte v
  | sent p v => "O" ++ Hex.word p ++ "=" ++ Hex.byte v

end BusEvent

/-- Memory at every address, and a record of the accesses. -/
structure FlatBus where
  /-- The contents of memory. -/
  memory : Memory
  /-- The accesses so far, the oldest first. -/
  events : Array BusEvent
  /-- The notices taken. -/
  journal : Journal

namespace FlatBus

/-- Memory with nothing recorded yet. -/
def ofMemory (memory : Memory) (journal : Journal) : FlatBus where
  memory := memory
  events := #[]
  journal := journal

instance : Inhabited FlatBus := ⟨ofMemory .blank .silent⟩

/-- Records an event. -/
@[inline] def record (bus : FlatBus) (e : BusEvent) : FlatBus :=
  { bus with events := bus.events.push e }

instance : Addressable FlatBus where
  read bus a := bus.memory.read a
  write bus a b :=
    { bus with memory := bus.memory.write a b, events := bus.events.push (.wrote a b) }
  note n bus := { bus with journal := bus.journal.note n }

@[simp] theorem read_eq (bus : FlatBus) (a : UInt16) : read bus a = bus.memory.read a := rfl

@[simp] theorem memory_write (bus : FlatBus) (a : UInt16) (b : UInt8) :
    (write bus a b).memory = bus.memory.write a b := rfl

@[simp] theorem memory_note (bus : FlatBus) (n : Notice) : (note n bus).memory = bus.memory := rfl

end FlatBus

end EightBit
