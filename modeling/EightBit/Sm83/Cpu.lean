import EightBit.Sm83.Bus
import EightBit.Sm83.Registers
import EightBit.Trace.Entry

/-!
# The state of an SM83

Besides its registers the processor holds the interrupt master enable with the delayed effect of
`EI`, the two idle states entered by `HALT` and `STOP`, and the latch of the `HALT` bug, under
which the next opcode fetch does not advance the program counter. A board is a processor together
with what it is connected to.

## Main definitions

* `BootState`, `ImeSchedule`, `Cpu`: the state and its parts.
* `Cpu.create`, `Cpu.reset`: the state after power-on and after a reset.
* `Board`, with the memory accesses of a processor: `nextByte`, `skip`, `push`, `stackTop`.

## Main results

* `Cpu.reset_eq_create`: a reset leads back to the state after power-on.
-/

namespace EightBit.Sm83

/-- The register state a processor starts from. -/
inductive BootState
  /-- What the boot program of the handheld leaves behind. -/
  | dmg
  /-- Every register zero. -/
  | zeroed
  deriving DecidableEq, Repr

/-- The registers of a boot state. -/
def BootState.registers : BootState → Registers
  | .dmg =>
    { a := 0x01, f := 0xB0, b := 0x00, c := 0x13, d := 0x00, e := 0xD8, h := 0x01, l := 0x4D,
      sp := 0xFFFE, pc := 0x0100 }
  | .zeroed => .zero

/-- How far an `EI` has come in setting the interrupt master enable. -/
inductive ImeSchedule
  /-- No `EI` is in flight. -/
  | idle
  /-- `EI` was executed in the current step. -/
  | requested
  /-- The instruction after `EI` runs next; interrupts are enabled when it ends. -/
  | enabling
  deriving DecidableEq, Repr

/-- The state of the processor. -/
structure Cpu where
  regs : Registers
  /-- The interrupt master enable. -/
  ime : Bool
  /-- `HALT` was executed and no interrupt has come since. -/
  halted : Bool
  /-- `STOP` was executed and no joypad line has fallen since. -/
  stopped : Bool
  /-- The next opcode fetch does not advance the program counter. -/
  haltBug : Bool
  schedule : ImeSchedule
  /-- The state a reset leads back to. -/
  boot : BootState
  /-- T-cycles of the current instruction beyond its base cost. -/
  extraCycles : Nat
  /-- The address of the instruction started last. -/
  instructionAddress : UInt16
  /-- The bytes fetched for it. -/
  fetched : InstructionBytes
  /-- How many opcodes without a meaning were executed since the last reset. -/
  invalidOpcodes : Nat
  deriving DecidableEq

namespace Cpu

/-- The processor after power-on. -/
def create (boot : BootState) : Cpu where
  regs := boot.registers
  ime := false
  halted := false
  stopped := false
  haltBug := false
  schedule := .idle
  boot := boot
  extraCycles := 0
  instructionAddress := 0
  fetched := .empty
  invalidOpcodes := 0

instance : Inhabited Cpu := ⟨create .dmg⟩

/-- Leads back to the state after power-on. -/
def reset (cpu : Cpu) : Cpu :=
  { cpu with
    regs := cpu.boot.registers
    ime := false
    halted := false
    stopped := false
    haltBug := false
    schedule := .idle
    extraCycles := 0
    instructionAddress := 0
    fetched := cpu.fetched.clear
    invalidOpcodes := 0 }

/-- A reset leads back to the state after power-on, but for what is left in the buffer of the bytes
fetched. -/
theorem reset_eq_create (cpu : Cpu) :
    cpu.reset = { create cpu.boot with fetched := cpu.fetched.clear } := rfl

/-- Arms the `HALT` bug from outside. -/
def latchHaltBug (cpu : Cpu) : Cpu :=
  { cpu with haltBug := true }

/-- Whether an `EI` has yet to take effect. -/
def enableScheduled (cpu : Cpu) : Bool :=
  cpu.schedule != .idle

/-- Advances an `EI` that is in flight, at the end of an executed instruction. -/
def advanceSchedule (cpu : Cpu) : Cpu :=
  match cpu.schedule with
  | .idle => cpu
  | .requested => { cpu with schedule := .enabling }
  | .enabling => { cpu with ime := true, schedule := .idle }

end Cpu

/-- A processor and what it is connected to. -/
structure Board (β : Type) where
  cpu : Cpu
  bus : β

namespace Board

variable {β : Type} [Bus β]

/-- Changes the registers. -/
@[inline] def mapRegs (s : Board β) (f : Registers → Registers) : Board β :=
  { s with cpu := { s.cpu with regs := f s.cpu.regs } }

/-- Moves the program counter. -/
@[inline] def jumpTo (s : Board β) (pc : UInt16) : Board β :=
  s.mapRegs ({ · with pc := pc })

/-- Charges cycles beyond the base cost. -/
@[inline] def charge (s : Board β) (n : Nat) : Board β :=
  { s with cpu := { s.cpu with extraCycles := s.cpu.extraCycles + n } }

/-- The byte at an address. -/
@[inline] def load (s : Board β) (a : UInt16) : UInt8 :=
  read s.bus a

/-- Stores a byte. -/
@[inline] def store (s : Board β) (a : UInt16) (b : UInt8) : Board β :=
  { s with bus := write s.bus a b }

/-! ### The instruction stream -/

/-- The byte the program counter points to. -/
@[inline] def nextByte (s : Board β) : UInt8 :=
  s.load s.cpu.regs.pc

/-- Fetches the byte the program counter points to: it is noted as part of the instruction, and the
program counter moves on, unless the `HALT` bug holds it back once. -/
def skip (s : Board β) : Board β :=
  let cpu := { s.cpu with fetched := s.cpu.fetched.push s.nextByte }
  if cpu.haltBug then { s with cpu := { cpu with haltBug := false } }
  else { s with cpu := { cpu with regs := { cpu.regs with pc := cpu.regs.pc + 1 } } }

/-- The word the program counter points to, the low byte first. -/
def nextWord (s : Board β) : UInt16 :=
  word s.skip.nextByte s.nextByte

/-- Fetches two bytes. -/
def skipWord (s : Board β) : Board β :=
  s.skip.skip

/-! ### The stack -/

/-- Puts a word onto the stack, the upper byte first. -/
def push (s : Board β) (w : UInt16) : Board β :=
  let sp := s.cpu.regs.sp
  { s.mapRegs ({ · with sp := sp - 2 }) with bus := pushWord s.bus sp w }

/-- The word on top of the stack. -/
def stackTop (s : Board β) : UInt16 :=
  readWord s.bus s.cpu.regs.sp

/-- Takes a word off the stack. -/
def drop (s : Board β) : Board β :=
  s.mapRegs fun r => { r with sp := r.sp + 2 }

/-! ### Byte operands -/

/-- The value of a byte operand. -/
def operand (s : Board β) : Reg8 → UInt8
  | .b => s.cpu.regs.b
  | .c => s.cpu.regs.c
  | .d => s.cpu.regs.d
  | .e => s.cpu.regs.e
  | .h => s.cpu.regs.h
  | .l => s.cpu.regs.l
  | .atHl => s.load s.cpu.regs.hl
  | .a => s.cpu.regs.a

/-- Sets a byte operand. -/
def setOperand (s : Board β) (x : Reg8) (v : UInt8) : Board β :=
  match x with
  | .b => s.mapRegs ({ · with b := v })
  | .c => s.mapRegs ({ · with c := v })
  | .d => s.mapRegs ({ · with d := v })
  | .e => s.mapRegs ({ · with e := v })
  | .h => s.mapRegs ({ · with h := v })
  | .l => s.mapRegs ({ · with l := v })
  | .atHl => s.store s.cpu.regs.hl v
  | .a => s.mapRegs ({ · with a := v })

end Board

end EightBit.Sm83
