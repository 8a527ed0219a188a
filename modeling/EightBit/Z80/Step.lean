import EightBit.Z80.Decoding
import EightBit.Z80.Execute

/-!
# Stepping a Z80

One step executes one instruction, or lets a halted processor wait for one machine cycle. Whoever
steps the processor then lets the same time pass for the devices, and gives the processor the
occasion to accept an interrupt.

## Main definitions

* `Stepped`: what a step took, left behind and executed.
* `Board.step`: one step.
* `Cpu.traceEntry`, `Stepped.entry?`: the trace entry of an executed instruction.
-/

namespace EightBit.Z80

/-- The T-cycles of a step in which the processor is halted. -/
def idleCycles : Nat := 4

/-- The outcome of a step. -/
structure Stepped (β : Type) where
  /-- The T-cycles taken. -/
  cycles : Nat
  board : Board β
  /-- The instruction executed and the mode it executed in; `none` when the processor was
  halted. -/
  executed : Option (IndexMode × Instruction)

/-- The trace entry of an instruction that the processor has just executed in a mode. -/
def Cpu.traceEntry (cpu : Cpu) (m : IndexMode) (i : Instruction) : TraceEntry where
  address := cpu.instructionAddress
  bytes := cpu.fetched
  mnemonic := i.mnemonic m

/-- The trace entry of the instruction a step executed. -/
def Stepped.entry? {β : Type} (r : Stepped β) : Option TraceEntry :=
  r.executed.map fun (m, i) => r.board.cpu.traceEntry m i

namespace Board

variable {β : Type} [Bus β]

/-- Forgets what the processor knows only while an instruction executes. -/
@[inline] def settle (s : Board β) : Board β :=
  { s with cpu := { s.cpu with extraCycles := 0, mode := .hl, indexAddress := none } }

/-- Fetches, decodes and executes the instruction at the program counter. -/
def executeNext (s : Board β) : Stepped β :=
  let d := s.begin.decoded
  let mode := d.board.cpu.mode
  let s := d.board.execute d.instruction
  { cycles := d.cycles + s.cpu.extraCycles
    board := s.settle
    executed := some (mode, d.instruction) }

/-- One step. It ends the shadow of an `EI` before it. A halted processor executes nothing but goes
on refreshing memory. -/
def step (s : Board β) : Stepped β :=
  let s := { s with cpu := { s.cpu with extraCycles := 0, eiShadow := false } }
  if s.cpu.halted then ⟨idleCycles, s.mapRegs (·.refresh), none⟩
  else s.executeNext

end Board

end EightBit.Z80
