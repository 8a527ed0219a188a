import EightBit.Proofs.Sm83.Branches
import EightBit.Proofs.Z80.Branches

/-!
# Conditional branches of both processors

On both processors a conditional branch is either passed, or does what the unconditional branch of
its family does. The one exception is a return that finds its own opcode on the stack: the opcodes
of the conditional and the unconditional return differ, and so do the addresses that they lead to.

## Main results

* `conditionalBranches`: every conditional branch of both processors.
* `not_forall_agreesOff_ret`: the return that finds its own opcode on the stack.
-/

namespace EightBit

/-- **Conditional branches.** A branch whose condition does not hold moves the program counter past
itself and does nothing else, except that `DJNZ` counts. A branch whose condition holds has the
outcome of the unconditional branch of its family with the same operand at the same address, unless
it is a return that takes its own opcode off the stack. Either way the cost is that of the opcode,
with the difference of the family for a branch that is taken. -/
theorem conditionalBranches (s : Sm83.Board FlatBus) (t : Z80.Board Z80.PortBus) :
    (∀ b (cc : Sm83.Cond), s.Executes → s.nextByte = b.opcodeIf cc.code → s.BranchesIf b cc) ∧
    (∀ c : Z80.Conditional, t.cpu.halted = false → t.nextByte = c.opcode → t.Branches c) :=
  ⟨fun _ _ hs hop => hs.branchesIf hop, fun _ hrun hop => Z80.Board.branches hrun hop⟩

namespace Sm83.Board

/-- A board with all registers zero at a conditional call. -/
def callNzBoard : Board FlatBus where
  cpu := Cpu.create .zeroed
  bus := .ofMemory (Memory.blank.write 0 0xC4) .silent

/-- A board with all registers zero at a conditional return, which is on top of the stack, too. -/
def retNzBoard : Board FlatBus where
  cpu := Cpu.create .zeroed
  bus := .ofMemory (Memory.blank.write 0 0xC0) .silent

theorem executes_callNzBoard : callNzBoard.Executes := ⟨rfl, rfl, rfl⟩

theorem executes_retNzBoard : retNzBoard.Executes := ⟨rfl, rfl, rfl⟩

theorem nextByte_callNzBoard : callNzBoard.nextByte = 0xC4 :=
  Memory.read_write_self _ _ _

theorem nextByte_retNzBoard : retNzBoard.nextByte = 0xC0 :=
  Memory.read_write_self _ _ _

end Sm83.Board

/-- A board at a loop that counts on. -/
def Z80.Board.djnzBoard : Z80.Board Z80.PortBus where
  cpu := Z80.Cpu.create
  bus := .ofFlat (.ofMemory (Memory.blank.write 0 0x10) .silent)

theorem Z80.Board.nextByte_djnzBoard : djnzBoard.nextByte = 0x10 :=
  Memory.read_write_self _ _ _

/-- A conditional call and a loop, both taken. -/
theorem conditionalBranches_taken :
    Sm83.Board.callNzBoard.Executes ∧
      Sm83.Board.callNzBoard.nextByte = Branch.call.opcodeIf Sm83.Cond.nz.code ∧
      Sm83.Board.callNzBoard.BranchesIf .call .nz ∧ Sm83.Board.callNzBoard.step.cycles = 24 ∧
      Z80.Board.djnzBoard.cpu.halted = false ∧
      Z80.Board.djnzBoard.nextByte = Z80.Conditional.djnz.opcode ∧
      Z80.Board.djnzBoard.Branches .djnz ∧ Z80.Board.djnzBoard.step.cycles = 13 := by
  obtain ⟨hsm83, hz80⟩ := conditionalBranches Sm83.Board.callNzBoard Z80.Board.djnzBoard
  have hcall := hsm83 .call .nz Sm83.Board.executes_callNzBoard Sm83.Board.nextByte_callNzBoard
  have hdjnz := hz80 .djnz rfl Z80.Board.nextByte_djnzBoard
  exact ⟨Sm83.Board.executes_callNzBoard, Sm83.Board.nextByte_callNzBoard, hcall, hcall.cycles, rfl,
    Z80.Board.nextByte_djnzBoard, hdjnz, hdjnz.cycles⟩

namespace Sm83.Board.Executes

variable {s : Sm83.Board FlatBus} (hs : s.Executes)
include hs

/-- A return leads to the address on the stack. -/
theorem pc_step_of_ret (hop : s.nextByte = Branch.ret.opcode) :
    s.step.board.cpu.regs.pc = s.stackTop := by
  rw [hs.board_step_of_branch hop, regs_retire]
  rfl

/-- So does a conditional one that is taken. -/
theorem pc_step_of_retIf {cc : Cond} (hop : s.nextByte = Branch.ret.opcodeIf cc.code)
    (hcc : s.cpu.regs.holds cc = true) : s.step.board.cpu.regs.pc = s.stackTop := by
  rw [hs.board_step_of_branchIf hop, if_pos hcc, regs_retire]
  rfl

end Sm83.Board.Executes

/-- A conditional return that is on top of the stack itself leads elsewhere than the unconditional
one in its place. -/
theorem not_forall_agreesOff_ret :
    ¬∀ (s : Sm83.Board FlatBus) (cc : Sm83.Cond), s.Executes →
      s.nextByte = Branch.ret.opcodeIf cc.code → s.cpu.regs.holds cc = true →
      s.step.board.AgreesOff s.cpu.regs.pc
        (s.map (FlatMemory.withByte s.cpu.regs.pc Branch.ret.opcode)).step.board := by
  intro hall
  have hs := Sm83.Board.executes_retNzBoard
  have hop : Sm83.Board.retNzBoard.nextByte = Branch.ret.opcodeIf Sm83.Cond.nz.code :=
    Sm83.Board.nextByte_retNzBoard
  have ht : (Sm83.Board.retNzBoard.map (FlatMemory.withByte 0 Branch.ret.opcode)).Executes :=
    ⟨rfl, rfl, rfl⟩
  have hpc := congrArg Sm83.Registers.pc (hall _ .nz hs hop rfl).regs
  change (Sm83.Board.retNzBoard.map
    (FlatMemory.withByte 0 Branch.ret.opcode)).step.board.cpu.regs.pc = _ at hpc
  rw [hs.pc_step_of_retIf hop rfl, ht.pc_step_of_ret (Memory.read_write_self _ _ _)] at hpc
  -- The lower bytes of the addresses are the opcodes.
  have hlow := congrArg loByte hpc
  simp only [Sm83.Board.stackTop, readWord, loByte_word] at hlow
  have hret : read (FlatMemory.withByte 0 Branch.ret.opcode Sm83.Board.retNzBoard.bus) 0 = 0xC9 :=
    FlatMemory.read_withByte_self _ _ _
  exact absurd (hret.symm.trans (hlow.trans Sm83.Board.nextByte_retNzBoard)) (by decide)

end EightBit
