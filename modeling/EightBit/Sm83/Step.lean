import EightBit.Sm83.Execute

/-!
# Stepping an SM83

One step executes one instruction, or lets an idle processor wait for one machine cycle. Whoever
steps the processor then lets the same time pass for the devices, and gives the processor the
occasion to take an interrupt.

## Main definitions

* `Stepped`: what a step took, left behind and executed.
* `Board.decoded`: the instruction at the program counter, with the cost of its opcode bytes.
* `Board.step`: one step.
* `Cpu.traceEntry`, `Stepped.entry?`: the trace entry of an executed instruction.
-/

namespace EightBit.Sm83

/-- The T-cycles of a step in which the processor is idle. -/
def idleCycles : Nat := 4

/-- The outcome of a step. -/
structure Stepped (β : Type) where
  /-- The T-cycles taken. -/
  cycles : Nat
  board : Board β
  /-- The instruction executed; `none` when the processor was idle. -/
  executed : Option Instruction

/-- The trace entry of an instruction that the processor has just executed. -/
def Cpu.traceEntry (cpu : Cpu) (i : Instruction) : TraceEntry where
  address := cpu.instructionAddress
  bytes := cpu.fetched
  mnemonic := i.mnemonic

/-- The trace entry of the instruction a step executed. -/
def Stepped.entry? {β : Type} (r : Stepped β) : Option TraceEntry :=
  r.executed.map r.board.cpu.traceEntry

namespace Board

variable {β : Type} [Bus β]

/-- Begins an instruction at the program counter. -/
@[inline] def begin (s : Board β) : Board β :=
  { s with
    cpu := { s.cpu with instructionAddress := s.cpu.regs.pc, fetched := s.cpu.fetched.clear } }

/-- The entry of the opcode at the program counter, and the board after fetching it. The prefix and
the opcode after it cost what both of their entries say. -/
def decoded (s : Board β) : Entry × Board β :=
  let first := Decode.primary s.nextByte
  let s := s.skip
  match first.instruction with
  | .prefixCb =>
    let second := Decode.cb s.nextByte
    (⟨first.cycles + second.cycles, second.instruction⟩, s.skip)
  | _ => (first, s)

/-- Fetches, decodes and executes the instruction at the program counter. -/
def executeNext (s : Board β) : Stepped β :=
  let (entry, s) := s.begin.decoded
  let s := s.execute entry.instruction
  let cpu := s.cpu
  { cycles := entry.cycles + cpu.extraCycles
    board := { s with cpu := { cpu with extraCycles := 0 }.advanceSchedule }
    executed := some entry.instruction }

/-- Leaves the stopped state once one of the joypad's input lines is low. -/
def watchJoypad (s : Board β) : Board β :=
  if s.load joypadAddress &&& 0x0F != 0x0F then
    { s with cpu := { s.cpu with stopped := false } }
  else s

/-- One step. A halted processor waits for an interrupt, a stopped one for the joypad; the step
that sees the joypad is still an idle one. -/
def step (s : Board β) : Stepped β :=
  let s := { s with cpu := { s.cpu with extraCycles := 0 } }
  if s.cpu.halted then ⟨idleCycles, s, none⟩
  else if s.cpu.stopped then ⟨idleCycles, s.watchJoypad, none⟩
  else s.executeNext

end Board

end EightBit.Sm83
