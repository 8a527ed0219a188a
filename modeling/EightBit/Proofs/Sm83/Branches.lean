import EightBit.Proofs.Shared.Branch
import EightBit.Proofs.Sm83.Placement
import EightBit.Proofs.Sm83.Surroundings

/-!
# Conditional branches of the SM83

A conditional branch whose condition does not hold does nothing but move the program counter past
itself. One whose condition holds does what the unconditional branch of its family does, with the
same operand at the same address, and is charged the difference. The two are compared on memories
that differ in the opcode. A return must not find the opcode on the stack, where it would be taken
for part of an address.

## Main definitions

* `Cond.code`, `Instruction.branch`, `Instruction.branchIf`: conditions and branches in opcodes.
* `baseCycles`, `takenCycles`: what a conditional branch costs, and what it costs more when taken.
* `Board.AgreesOff`: boards that agree but for one byte of memory, and for the bytes recorded.
* `Board.BranchesIf`: what a conditional branch does.

## Main results

* `Board.carryOut_branchIf`: a conditional branch is the unconditional one or nothing.
* `Board.AgreesOff.carryOut_branch`: branching keeps boards in agreement.
* `Board.Executes.branchesIf`: every conditional branch.
-/

namespace EightBit.Sm83

/-! ### Opcodes -/

/-- The code of a condition in an opcode. -/
def Cond.code : Cond → UInt8
  | nz => 0
  | z => 1
  | nc => 2
  | c => 3

/-- The unconditional branch of a family. -/
def Instruction.branch : Branch → Instruction
  | .jr => .jr
  | .jp => .jp
  | .call => .call
  | .ret => .ret

/-- The conditional branch of a family. -/
def Instruction.branchIf (b : Branch) (cc : Cond) : Instruction :=
  match b with
  | .jr => .jrIf cc
  | .jp => .jpIf cc
  | .call => .callIf cc
  | .ret => .retIf cc

/-- What a conditional branch costs when it is not taken. -/
def baseCycles : Branch → Nat
  | .jr => 8
  | .jp => 12
  | .call => 12
  | .ret => 8

/-- What a conditional branch costs more when it is taken. -/
def takenCycles : Branch → Nat
  | .jr => 4
  | .jp => 4
  | .call => 12
  | .ret => 12

namespace Decode

theorem primary_opcodeIf (b : Branch) (cc : Cond) :
    primary (b.opcodeIf cc.code) = ⟨baseCycles b, .branchIf b cc⟩ := by
  cases b <;> cases cc <;> rfl

theorem entry_opcodeIf (b : Branch) (cc : Cond) (second : UInt8) :
    entry (b.opcodeIf cc.code) second = ⟨baseCycles b, .branchIf b cc⟩ := by
  have hcb : b.opcodeIf cc.code ≠ 0xCB := by cases b <;> cases cc <;> decide
  rw [entry_of_ne_cb hcb, primary_opcodeIf]

theorem instruction_entry_opcode (b : Branch) (second : UInt8) :
    (entry b.opcode second).instruction = .branch b := by
  cases b <;> rfl

end Decode

theorem length_branchIf (b : Branch) (cc : Cond) :
    (Instruction.branchIf b cc).length = b.length := by
  cases b <;> rfl

theorem length_branch (b : Branch) : (Instruction.branch b).length = b.length := by
  cases b <;> rfl

namespace Board

variable {β : Type} [Bus β]

/-- A conditional branch is the unconditional one with its charge, or nothing. -/
theorem carryOut_branchIf (s : Board β) (b : UInt8) (w : UInt16) (family : Branch) (cc : Cond) :
    s.carryOut b w (.branchIf family cc) =
      if s.cpu.regs.holds cc then (s.carryOut b w (.branch family)).charge (takenCycles family)
      else s := by
  cases family with
  | jr | jp | call => rfl
  | ret => exact Branch.charged_eq s.returnIf (·.charge _) _

/-! ### Boards that differ in one byte -/

/-- The boards are the same but for the byte at the address `a`, and for the bytes recorded. -/
structure AgreesOff (a : UInt16) (s t : Board FlatBus) : Prop where
  cpu : Recording.Agree s.cpu t.cpu
  bus : FlatMemory.AgreesOff a s.bus t.bus

theorem agreesOff_placed (s : Board FlatBus) (a c : UInt16) (x : UInt8) {code code' : Code}
    (h : code'.length = code.length) :
    (s.placed c code).AgreesOff a ((s.map (FlatMemory.withByte a x)).placed c code') where
  cpu := ⟨code'.bytes.foldl .push s.cpu.fetched.clear, by rw [placed, placed, h]; rfl⟩
  bus := FlatMemory.agreesOff_withByte a x s.bus

namespace AgreesOff

variable {a : UInt16} {s t : Board FlatBus} (h : s.AgreesOff a t)
include h

theorem regs : t.cpu.regs = s.cpu.regs := by
  obtain ⟨bytes, hcpu⟩ := h.cpu
  rw [hcpu]
  rfl

theorem mapRegs (f : Registers → Registers) : (s.mapRegs f).AgreesOff a (t.mapRegs f) where
  cpu := h.cpu.map (fun c => { c with regs := f c.regs }) fun _ bytes => ⟨bytes, rfl⟩
  bus := h.bus

theorem jumpTo (pc : UInt16) : (s.jumpTo pc).AgreesOff a (t.jumpTo pc) :=
  h.mapRegs _

theorem push (w : UInt16) : (s.push w).AgreesOff a (t.push w) := by
  have hpushed := h.bus.pushWord s.cpu.regs.sp w
  rw [Board.push, Board.push, h.regs]
  exact { h.mapRegs ({ · with sp := s.cpu.regs.sp - 2 }) with bus := hpushed }

/-- Branching keeps boards in agreement. A return must not take the byte that they differ in for
part of its address. -/
theorem carryOut_branch (b : UInt8) (w : UInt16) (family : Branch)
    (hstack : family = .ret → s.cpu.regs.sp ≠ a ∧ s.cpu.regs.sp + 1 ≠ a) :
    (s.carryOut b w (.branch family)).AgreesOff a (t.carryOut b w (.branch family)) := by
  cases family with
  | jr =>
    change (s.jumpTo (s.cpu.regs.pc + _)).AgreesOff a (t.jumpTo (t.cpu.regs.pc + _))
    rw [h.regs]
    exact h.jumpTo _
  | jp => exact h.jumpTo w
  | call =>
    change ((s.push s.cpu.regs.pc).jumpTo w).AgreesOff a ((t.push t.cpu.regs.pc).jumpTo w)
    rw [h.regs]
    exact (h.push _).jumpTo w
  | ret =>
    obtain ⟨hlo, hhi⟩ := hstack rfl
    have htop : t.stackTop = s.stackTop := by
      rw [stackTop, stackTop, h.regs, h.bus.readWord hlo hhi]
    change (s.drop.jumpTo s.stackTop).AgreesOff a (t.drop.jumpTo t.stackTop)
    rw [htop]
    exact (h.mapRegs _).jumpTo _

/-- At the end of an instruction the charge is forgotten. -/
theorem retire_charge (n : Nat) : (s.charge n).retire.AgreesOff a t.retire where
  cpu := by
    refine h.cpu.map (fun c => { c with extraCycles := 0 }.advanceSchedule) fun c bytes => ?_
    cases hschedule : c.schedule <;> exact ⟨bytes, by
      simp only [Cpu.advanceSchedule, Recording.setRecord, hschedule]⟩
  bus := h.bus

end AgreesOff

/-! ### The step -/

/-- A step that executes the branch of the family `b` on the condition `cc`. -/
structure BranchesIf (s : Board FlatBus) (b : Branch) (cc : Cond) : Prop where
  /-- The cost, with the difference for a branch that is taken. -/
  cycles : s.step.cycles =
    baseCycles b + if s.cpu.regs.holds cc then takenCycles b else 0
  /-- If the condition does not hold, the program counter moves past the branch. -/
  untaken : s.cpu.regs.holds cc = false →
    s.step.board.cpu.regs = { s.cpu.regs with pc := s.cpu.regs.pc + .ofNat b.length } ∧
    s.step.board.cpu.control = s.cpu.control.advance ∧ s.step.board.bus = s.bus
  /-- If it holds, the outcome is that of the unconditional branch in the same place. -/
  taken : s.cpu.regs.holds cc = true →
    (b = .ret → s.cpu.regs.sp ≠ s.cpu.regs.pc ∧ s.cpu.regs.sp + 1 ≠ s.cpu.regs.pc) →
    s.step.board.AgreesOff s.cpu.regs.pc
      (s.map (FlatMemory.withByte s.cpu.regs.pc b.opcode)).step.board

/-- Replacing the opcode leaves the bytes behind it alone. -/
theorem codeInOrder_withByte (s : Board FlatBus) (x : UInt8) :
    (s.map (FlatMemory.withByte s.cpu.regs.pc x)).codeInOrder =
      { s.codeInOrder with opcode := x } := by
  have hone : s.cpu.regs.pc ≠ s.cpu.regs.pc + 1 := by grind
  have htwo : s.cpu.regs.pc ≠ s.cpu.regs.pc + 2 := by grind
  have hfirst := s.bus.memory.read_write_self s.cpu.regs.pc x
  have hsecond := s.bus.memory.read_write_of_ne x hone
  have hthird := s.bus.memory.read_write_of_ne x htwo
  exact congr (congr (congrArg Code.mk hfirst) hsecond) hthird

/-- The step of a conditional branch. -/
theorem Executes.board_step_of_branchIf {s : Board FlatBus} (hs : s.Executes) {b : Branch}
    {cc : Cond} (hop : s.nextByte = b.opcodeIf cc.code) :
    s.step.board =
      (if s.cpu.regs.holds cc then
        ((s.placed s.cpu.regs.pc s.codeInOrder).carryOut s.codeInOrder.second
          s.codeInOrder.operandWord (.branch b)).charge (takenCycles b)
      else s.placed s.cpu.regs.pc s.codeInOrder).retire := by
  have hentry : s.codeInOrder.entry.instruction = .branchIf b cc := by
    rw [Code.entry, codeInOrder, hop, Decode.entry_opcodeIf]
  rw [hs.step_eq_executeAt, executeAt]
  dsimp only
  rw [hentry, carryOut_branchIf]
  rfl

/-- The step of an unconditional branch. -/
theorem Executes.board_step_of_branch {s : Board FlatBus} (hs : s.Executes) {b : Branch}
    (hop : s.nextByte = b.opcode) :
    s.step.board =
      ((s.placed s.cpu.regs.pc s.codeInOrder).carryOut s.codeInOrder.second
        s.codeInOrder.operandWord (.branch b)).retire := by
  have hentry : s.codeInOrder.entry.instruction = .branch b := by
    rw [Code.entry, codeInOrder, hop, Decode.instruction_entry_opcode]
  rw [hs.step_eq_executeAt, executeAt]
  dsimp only
  rw [hentry]

/-- Every conditional branch does this. -/
theorem Executes.branchesIf {s : Board FlatBus} (hs : s.Executes) {b : Branch} {cc : Cond}
    (hop : s.nextByte = b.opcodeIf cc.code) : s.BranchesIf b cc := by
  have hentry : s.codeInOrder.entry = ⟨baseCycles b, .branchIf b cc⟩ := by
    rw [Code.entry, codeInOrder, hop, Decode.entry_opcodeIf]
  have hlength : s.codeInOrder.length = b.length := by
    rw [Code.length, hentry, length_branchIf]
  constructor
  · have hcost : s.surcharge (.branchIf b cc) =
        if s.cpu.regs.holds cc then takenCycles b else 0 := by
      cases b <;> rfl
    rw [cycles_step hs.halted hs.stopped, hs.code, hentry, hcost]
  · intro hcc
    have hboard := hs.board_step_of_branchIf hop
    rw [if_neg (Bool.eq_false_iff.1 hcc)] at hboard
    refine ⟨?_, ?_, ?_⟩
    · rw [hboard, regs_retire, ← hlength]
      rfl
    · rw [control_step_of_awake hs.halted hs.stopped, hs.code, hentry,
        Control.release_eq_self hs.haltBug]
      cases b <;> rfl
    · rw [hboard]
      rfl
  · intro hcc hstack
    have ht : (s.map (FlatMemory.withByte s.cpu.regs.pc b.opcode)).Executes :=
      ⟨hs.halted, hs.stopped, hs.haltBug⟩
    have hcode := s.codeInOrder_withByte b.opcode
    have htop : (s.map (FlatMemory.withByte s.cpu.regs.pc b.opcode)).nextByte = b.opcode :=
      FlatMemory.read_withByte_self _ _ s.bus
    have hsame : Code.length { s.codeInOrder with opcode := b.opcode } = s.codeInOrder.length := by
      rw [hlength, Code.length, Code.entry, Decode.instruction_entry_opcode, length_branch]
    have hplaced := s.agreesOff_placed s.cpu.regs.pc s.cpu.regs.pc b.opcode hsame
    rw [hs.board_step_of_branchIf hop, if_pos hcc, ht.board_step_of_branch htop, hcode]
    exact (hplaced.carryOut_branch _ _ b hstack).retire_charge _

end Board

end EightBit.Sm83
