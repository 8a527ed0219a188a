import EightBit.Trace.Entry
import EightBit.Z80.Bus
import EightBit.Z80.Registers

/-!
# The state of a Z80

Besides its registers the processor holds two interrupt flip-flops, the interrupt mode and the
idle state entered by `HALT`. While an instruction executes it also holds the register that stands
for `HL` and the address of the indexed operand, once its displacement has been fetched. A board is
a processor together with what it is connected to.

## Main definitions

* `Cpu`, `Cpu.create`, `Cpu.reset`: the state, and how it starts.
* `Board`, with the memory accesses of a processor: `nextByte`, `skip`, `skipOpcode`, `push`,
  `stackTop`, and the operands under an index mode: `aim`, `pointer`, `operand`, `setOperand`.
-/

namespace EightBit.Z80

/-- The state of the processor. -/
structure Cpu where
  regs : Registers
  /-- Maskable interrupts are accepted. -/
  iff1 : Bool
  /-- What `iff1` was before a non-maskable interrupt. -/
  iff2 : Bool
  /-- The interrupt mode. -/
  im : UInt8
  /-- `HALT` was executed and no interrupt has been accepted since. -/
  halted : Bool
  /-- `EI` was executed in the last step, so that no maskable interrupt is accepted yet. -/
  eiShadow : Bool
  /-- The register that stands for `HL` in the current instruction. -/
  mode : IndexMode
  /-- The address of the indexed operand, once its displacement has been fetched. -/
  indexAddress : Option UInt16
  /-- T-cycles of the current instruction beyond its base cost. -/
  extraCycles : Nat
  /-- The address of the instruction started last. -/
  instructionAddress : UInt16
  /-- The bytes fetched for it. -/
  fetched : InstructionBytes
  /-- How many opcodes without a meaning were executed since the last reset. -/
  invalidOpcodes : Nat
  deriving DecidableEq

namespace Cpu

/-- The registers after a reset: the accumulator, the flags and the stack pointer hold ones, as far
as the flags exist. -/
def resetRegisters : Registers :=
  { Registers.zero.setAf 0xFFFF with sp := 0xFFFF }

/-- The processor after power-on. -/
def create : Cpu where
  regs := resetRegisters
  iff1 := false
  iff2 := false
  im := 0
  halted := false
  eiShadow := false
  mode := .hl
  indexAddress := none
  extraCycles := 0
  instructionAddress := 0
  fetched := .empty
  invalidOpcodes := 0

instance : Inhabited Cpu := ⟨create⟩

/-- A reset leads back to the state after power-on, whatever came before, but for what is left in
the buffer of the bytes fetched. -/
def reset (cpu : Cpu) : Cpu :=
  { create with fetched := cpu.fetched.clear }

end Cpu

/-- A processor and what it is connected to. -/
structure Board (β : Type) where
  cpu : Cpu
  bus : β

namespace Board

variable {β : Type} [Bus β]

/-- Changes the registers. -/
@[inline] def mapRegs (s : Board β) (f : Registers → Registers) : Board β :=
  { s with cpu := { s.cpu with regs := f s.cpu.regs } }

/-- Moves the program counter. -/
@[inline] def jumpTo (s : Board β) (pc : UInt16) : Board β :=
  s.mapRegs ({ · with pc := pc })

/-- Charges cycles beyond the base cost. -/
@[inline] def charge (s : Board β) (n : Nat) : Board β :=
  { s with cpu := { s.cpu with extraCycles := s.cpu.extraCycles + n } }

/-- The byte at an address. -/
@[inline] def load (s : Board β) (a : UInt16) : UInt8 :=
  read s.bus a

/-- Stores a byte. -/
@[inline] def store (s : Board β) (a : UInt16) (b : UInt8) : Board β :=
  { s with bus := write s.bus a b }

/-! ### The instruction stream -/

/-- The byte the program counter points to. -/
@[inline] def nextByte (s : Board β) : UInt8 :=
  s.load s.cpu.regs.pc

/-- Fetches the byte the program counter points to. -/
def skip (s : Board β) : Board β :=
  let r := s.cpu.regs
  { s with
    cpu := { s.cpu with
      fetched := s.cpu.fetched.push s.nextByte
      regs := { r with pc := r.pc + 1 } } }

/-- Fetches the byte the program counter points to as an opcode, which the refresh counter
counts. -/
def skipOpcode (s : Board β) : Board β :=
  s.skip.mapRegs (·.refresh)

/-- The word the program counter points to, the low byte first. -/
def nextWord (s : Board β) : UInt16 :=
  word s.skip.nextByte s.nextByte

/-- Fetches two bytes. -/
def skipWord (s : Board β) : Board β :=
  s.skip.skip

/-! ### The stack -/

/-- Puts a word onto the stack, the upper byte first. -/
def push (s : Board β) (w : UInt16) : Board β :=
  let sp := s.cpu.regs.sp
  { s.mapRegs ({ · with sp := sp - 2 }) with bus := pushWord s.bus sp w }

/-- The word on top of the stack. -/
def stackTop (s : Board β) : UInt16 :=
  readWord s.bus s.cpu.regs.sp

/-- Takes a word off the stack. -/
def drop (s : Board β) : Board β :=
  s.mapRegs fun r => { r with sp := r.sp + 2 }

/-! ### Operands under an index mode -/

/-- The register that stands for `HL`. -/
@[inline] def indexValue (s : Board β) : UInt16 :=
  s.cpu.regs.index s.cpu.mode

/-- Fetches the displacement of an indexed operand, the first time it is used. -/
def aim (s : Board β) (x : Reg8) : Board β :=
  if x.isIndirect && s.cpu.mode != .hl && s.cpu.indexAddress.isNone then
    let a := s.indexValue + displacement s.nextByte
    let s := s.skip
    { s with cpu := { s.cpu with indexAddress := some a } }
  else s

/-- The address of the memory operand: `HL`, or the indexed address that has been computed. -/
def pointer (s : Board β) : UInt16 :=
  match s.cpu.mode with
  | .hl => s.cpu.regs.hl
  | m => s.cpu.indexAddress.getD (s.cpu.regs.index m)

/-- The value of a byte operand, where `m` says which register has the halves `H` and `L`. -/
def operandIn (s : Board β) (m : IndexMode) : Reg8 → UInt8
  | .b => s.cpu.regs.b
  | .c => s.cpu.regs.c
  | .d => s.cpu.regs.d
  | .e => s.cpu.regs.e
  | .h => hiByte (s.cpu.regs.index m)
  | .l => loByte (s.cpu.regs.index m)
  | .atHl => s.load s.pointer
  | .a => s.cpu.regs.a

/-- Sets a byte operand, where `m` says which register has the halves `H` and `L`. -/
def setOperandIn (s : Board β) (m : IndexMode) (x : Reg8) (v : UInt8) : Board β :=
  match x with
  | .b => s.mapRegs ({ · with b := v })
  | .c => s.mapRegs ({ · with c := v })
  | .d => s.mapRegs ({ · with d := v })
  | .e => s.mapRegs ({ · with e := v })
  | .h => s.mapRegs fun r => r.setIndex m (word v (loByte (r.index m)))
  | .l => s.mapRegs fun r => r.setIndex m (word (hiByte (r.index m)) v)
  | .atHl => s.store s.pointer v
  | .a => s.mapRegs ({ · with a := v })

/-- The value of a byte operand. -/
@[inline] def operand (s : Board β) (x : Reg8) : UInt8 :=
  s.operandIn s.cpu.mode x

/-- Sets a byte operand. -/
@[inline] def setOperand (s : Board β) (x : Reg8) (v : UInt8) : Board β :=
  s.setOperandIn s.cpu.mode x v

/-- The value of a register pair. -/
@[inline] def pairValue (s : Board β) (p : Pair) : UInt16 :=
  s.cpu.regs.modePair s.cpu.mode p

/-- Sets a register pair. -/
@[inline] def setPairValue (s : Board β) (p : Pair) (w : UInt16) : Board β :=
  s.mapRegs (·.setModePair s.cpu.mode p w)

end Board

end EightBit.Z80
