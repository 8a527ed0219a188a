import EightBit.Proofs.Memory
import EightBit.Proofs.Records

/-!
# Branches and their opcodes

Both processors have four families of branches: relative and absolute jumps, calls and returns. An
unconditional branch and a conditional one of the same family have different opcodes, so programs
with one in the place of the other differ in one byte of memory. Surroundings that differ in one
byte of memory are compared here.

## Main definitions

* `Branch`, `Branch.opcode`, `Branch.opcodeIf`: the families and their opcodes.
* `FlatMemory`: surroundings with the memory of a flat bus.
* `FlatMemory.withByte`, `FlatMemory.AgreesOff`: one byte replaced, and surroundings that agree but
  for one byte.

## Main results

* `Branch.charged_eq`: a branch with its charge.
* `FlatMemory.AgreesOff.write`, `FlatMemory.AgreesOff.readWord`: surroundings that agree keep doing
  so.
-/

namespace EightBit

/-- A family of branches. -/
inductive Branch
  /-- A jump by a displacement. -/
  | jr
  /-- A jump to an address. -/
  | jp
  /-- A call of an address. -/
  | call
  /-- A return. -/
  | ret
  deriving DecidableEq, Repr

namespace Branch

/-- The opcode of the unconditional branch. -/
def opcode : Branch → UInt8
  | jr => 0x18
  | jp => 0xC3
  | call => 0xCD
  | ret => 0xC9

/-- The opcode of the branch on the condition with a given code. -/
def opcodeIf (b : Branch) (code : UInt8) : UInt8 :=
  8 * code +
    match b with
    | jr => 0x20
    | jp => 0xC2
    | call => 0xC4
    | ret => 0xC0

/-- The number of bytes. -/
def length : Branch → Nat
  | jr => 2
  | jp | call => 3
  | ret => 1

/-- A branch with its charge, by whether it is taken. -/
theorem charged_eq {α : Type} (branch : Bool → α) (charge : α → α) (taken : Bool) :
    (if taken then charge (branch taken) else branch taken) =
      if taken then charge (branch true) else branch false := by
  cases taken <;> rfl

end Branch

namespace FlatBus

/-- Everything is the same but for the byte at the address `a`. -/
structure AgreesOff (a : UInt16) (bus bus' : FlatBus) : Prop where
  memory : ∀ c, c ≠ a → bus'.memory.read c = bus.memory.read c
  events : bus'.events = bus.events
  journal : bus'.journal = bus.journal

/-- The same byte is written to both, be it at `a` or elsewhere. -/
theorem AgreesOff.write {a : UInt16} {bus bus' : FlatBus} (h : bus.AgreesOff a bus') (c : UInt16)
    (b : UInt8) : (write bus c b).AgreesOff a (write bus' c b) where
  memory d hd := by
    rw [memory_write, memory_write, Memory.read_write, Memory.read_write, h.memory d hd]
  events := congrArg (·.push (.wrote c b)) h.events
  journal := h.journal

end FlatBus

/-- Surroundings that have the memory of a flat bus, whatever else there is beside it. -/
class FlatMemory (β : Type) [Addressable β] where
  flat : β → FlatBus
  /-- The same surroundings with another memory. -/
  setFlat : β → FlatBus → β
  flat_setFlat (bus : β) (f : FlatBus) : flat (setFlat bus f) = f
  setFlat_setFlat (bus : β) (f g : FlatBus) : setFlat (setFlat bus f) g = setFlat bus g
  read_eq (bus : β) (a : UInt16) : read bus a = (flat bus).memory.read a
  write_eq (bus : β) (a : UInt16) (b : UInt8) : write bus a b = setFlat bus (write (flat bus) a b)

namespace FlatMemory

instance : FlatMemory FlatBus where
  flat := id
  setFlat _ f := f
  flat_setFlat _ _ := rfl
  setFlat_setFlat _ _ _ := rfl
  read_eq _ _ := rfl
  write_eq _ _ _ := rfl

variable {β : Type} [Addressable β] [FlatMemory β]

/-- A byte of memory replaced from outside. -/
def withByte (a : UInt16) (b : UInt8) (bus : β) : β :=
  setFlat bus { flat bus with memory := (flat bus).memory.write a b }

theorem read_withByte (a : UInt16) (b : UInt8) (bus : β) (c : UInt16) :
    read (withByte a b bus) c = if a = c then b else read bus c := by
  rw [read_eq, withByte, flat_setFlat, Memory.read_write, read_eq]

theorem read_withByte_self (a : UInt16) (b : UInt8) (bus : β) : read (withByte a b bus) a = b := by
  rw [read_withByte, if_pos rfl]

/-- Everything is the same but for the byte at the address `a`. -/
structure AgreesOff (a : UInt16) (bus bus' : β) : Prop where
  flat : (flat bus).AgreesOff a (flat bus')
  rest : bus' = setFlat bus (FlatMemory.flat bus')

theorem agreesOff_withByte (a : UInt16) (b : UInt8) (bus : β) :
    AgreesOff a bus (withByte a b bus) where
  flat := by
    rw [withByte, flat_setFlat]
    exact ⟨fun _ hc => Memory.read_write_of_ne _ _ hc.symm, rfl, rfl⟩
  rest := by rw [withByte, flat_setFlat]

namespace AgreesOff

variable {a : UInt16} {bus bus' : β} (h : AgreesOff a bus bus')
include h

theorem read {c : UInt16} (hc : c ≠ a) : read bus' c = read bus c := by
  rw [read_eq, read_eq, h.flat.memory c hc]

theorem write (c : UInt16) (b : UInt8) : AgreesOff a (write bus c b) (write bus' c b) where
  flat := by
    rw [write_eq bus, write_eq bus', flat_setFlat, flat_setFlat]
    exact h.flat.write c b
  rest := by
    have hset (f : FlatBus) : setFlat bus' f = setFlat bus f := by rw [h.rest, setFlat_setFlat]
    rw [write_eq bus, write_eq bus', flat_setFlat, setFlat_setFlat, hset]

theorem pushWord (sp w : UInt16) : AgreesOff a (pushWord bus sp w) (pushWord bus' sp w) :=
  (h.write _ _).write _ _

/-- A word is the same if `a` is the address of neither of its bytes. -/
theorem readWord {c : UInt16} (hlo : c ≠ a) (hhi : c + 1 ≠ a) :
    readWord bus' c = readWord bus c := by
  rw [EightBit.readWord, EightBit.readWord, h.read hlo, h.read hhi]

end AgreesOff

end FlatMemory

end EightBit
