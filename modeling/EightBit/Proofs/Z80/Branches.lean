import EightBit.Proofs.Shared.Branch
import EightBit.Proofs.Z80.Control
import EightBit.Proofs.Z80.Surroundings

/-!
# Conditional branches of the Z80

A conditional branch whose condition does not hold does nothing but move the program counter past
itself. One whose condition holds does what the unconditional branch of its family does, with the
same operand at the same address, and is charged the difference. `DJNZ` is a relative jump on a
condition that it makes itself: it counts `B` down, jump or not. The two are compared on memories
that differ in the opcode. A return must not find the opcode on the stack, where it would be taken
for part of an address.

## Main definitions

* `Conditional`: the conditional branches, with their family, their condition and their costs.
* `Board.AgreesOff`: boards that agree but for one byte of memory, and for the bytes recorded.
* `Board.Branches`: what a conditional branch does.

## Main results

* `Board.execute_conditional`: a conditional branch is the unconditional one or nothing.
* `Board.AgreesOff.execute_branch`: branching keeps boards in agreement.
* `Board.branches`: every conditional branch.
-/

namespace EightBit.Z80

/-! ### The branches -/

/-- The code of a condition in an opcode. -/
def Cond.code : Cond → UInt8
  | nz => 0
  | z => 1
  | nc => 2
  | c => 3
  | po => 4
  | pe => 5
  | p => 6
  | m => 7

/-- The unconditional branch of a family. -/
def Instruction.branch : Branch → Instruction
  | .jr => .jr
  | .jp => .jp
  | .call => .call
  | .ret => .ret

/-- The branch of a family on a flag. -/
def Instruction.branchIf (b : Branch) (cc : Cond) : Instruction :=
  match b with
  | .jr => .jrIf cc
  | .jp => .jpIf cc
  | .call => .callIf cc
  | .ret => .retIf cc

/-- A conditional branch. -/
inductive Conditional
  /-- A branch on a flag. Relative jumps depend on the zero and the carry flag only. -/
  | onFlag (b : Branch) (cc : Cond) (h : b = .jr → cc.code < 4)
  /-- The relative jump that counts `B` down. -/
  | djnz

namespace Conditional

def instruction : Conditional → Instruction
  | onFlag b cc _ => .branchIf b cc
  | djnz => .djnz

def opcode : Conditional → UInt8
  | onFlag b cc _ => b.opcodeIf cc.code
  | djnz => 0x10

/-- The family of the branch. -/
def family : Conditional → Branch
  | onFlag b _ _ => b
  | djnz => .jr

/-- Whether the branch is taken. -/
def taken (c : Conditional) (r : Registers) : Bool :=
  match c with
  | onFlag _ cc _ => r.holds cc
  | djnz => r.b - 1 != 0

/-- The registers after what a branch does whether it is taken or not. -/
def counted (c : Conditional) (r : Registers) : Registers :=
  match c with
  | onFlag _ _ _ => r
  | djnz => { r with b := r.b - 1 }

/-- The cost if the branch is not taken. -/
def baseCycles : Conditional → Nat
  | onFlag .jr _ _ => 7
  | onFlag .jp _ _ => 10
  | onFlag .call _ _ => 10
  | onFlag .ret _ _ => 5
  | djnz => 8

/-- What the branch costs more if it is taken. -/
def takenCycles : Conditional → Nat
  | onFlag .jr _ _ => 5
  | onFlag .jp _ _ => 0
  | onFlag .call _ _ => 7
  | onFlag .ret _ _ => 6
  | djnz => 5

theorem primary_opcode (c : Conditional) :
    Decode.primary c.opcode = ⟨c.baseCycles, c.instruction⟩ := by
  cases c with
  | djnz => rfl
  | onFlag b cc h =>
    change Decode.primary (b.opcodeIf cc.code) = _
    cases b with
    | jr =>
      have hcc := h rfl
      cases cc with
      | nz | z | nc | c => exact rfl
      | po | pe | p | m => exact absurd hcc (by decide)
    | jp | call | ret => cases cc <;> exact rfl

theorem opcode_not_mem (c : Conditional) : c.opcode ∉ prefixBytes := by
  cases c with
  | djnz => decide
  | onFlag b cc h =>
    change b.opcodeIf cc.code ∉ prefixBytes
    clear h
    cases b <;> cases cc <;> decide

end Conditional

theorem Decode.instruction_primary_opcode (b : Branch) :
    (primary b.opcode).instruction = .branch b := by
  cases b <;> rfl

theorem opcode_not_mem_prefixBytes (b : Branch) : b.opcode ∉ prefixBytes := by
  cases b <;> decide

namespace Board

section

variable {β : Type} [Bus β] {s : Board β}

/-! ### Executing -/

/-- The board after the operand of a branch was fetched. -/
def skipOperand (s : Board β) : Branch → Board β
  | .jr => s.skip
  | .jp | .call => s.skipWord
  | .ret => s

theorem control_skipOperand (s : Board β) (b : Branch) :
    (s.skipOperand b).cpu.control = s.cpu.control := by
  cases b <;> rfl

theorem extraCycles_skipOperand (s : Board β) (b : Branch) :
    (s.skipOperand b).cpu.extraCycles = s.cpu.extraCycles := by
  cases b <;> rfl

theorem bus_skipOperand (s : Board β) (b : Branch) : (s.skipOperand b).bus = s.bus := by
  cases b <;> rfl

theorem regs_skipOperand (s : Board β) (b : Branch) :
    (s.skipOpcode.skipOperand b).cpu.regs =
      { s.cpu.regs.refresh with pc := s.cpu.regs.pc + .ofNat b.length } := by
  have htwo (pc : UInt16) : pc + 1 + 1 = pc + 2 := UInt16.add_assoc pc 1 1
  have hthree (pc : UInt16) : pc + 1 + 1 + 1 = pc + 3 := by rw [htwo, UInt16.add_assoc]; rfl
  cases b with
  | jr => exact congrArg (fun pc => { s.cpu.regs.refresh with pc := pc }) (htwo _)
  | jp | call => exact congrArg (fun pc => { s.cpu.regs.refresh with pc := pc }) (hthree _)
  | ret => rfl

/-- A conditional branch is the unconditional one with its charge, or nothing but its fetches. -/
theorem execute_conditional (s : Board β) (c : Conditional) :
    s.execute c.instruction =
      if c.taken s.cpu.regs then
        ((s.execute (.branch c.family)).mapRegs c.counted).charge c.takenCycles
      else (s.skipOperand c.family).mapRegs c.counted := by
  cases c with
  | djnz => 
    exact Branch.charged_eq (s.mapRegs fun r => { r with b := r.b - 1 }).jumpRelative (·.charge _) _
  | onFlag b cc h =>
    cases b with
    | jr => exact Branch.charged_eq s.jumpRelative (·.charge _) _
    | jp => exact Branch.charged_eq s.jumpAbsolute (·.charge _) _
    | call => exact Branch.charged_eq s.callIf (·.charge _) _
    | ret => exact Branch.charged_eq s.returnIf (·.charge _) _

/-- A branch is charged for by its condition alone. -/
theorem extraCycles_execute_branch (s : Board β) (b : Branch) :
    (s.execute (.branch b)).cpu.extraCycles = s.cpu.extraCycles := by
  cases b with
  | jr => exact s.extraCycles_jumpRelative true
  | jp => exact s.extraCycles_jumpAbsolute true
  | call => exact s.extraCycles_callIf true
  | ret => exact s.extraCycles_returnIf true

end

/-! ### Boards that differ in one byte -/

instance : FlatMemory PortBus where
  flat := PortBus.flat
  setFlat bus f := { bus with flat := f }
  flat_setFlat _ _ := rfl
  setFlat_setFlat _ _ _ := rfl
  read_eq _ _ := rfl
  write_eq _ _ _ := rfl

/-- The boards are the same but for the byte at the address `a`, and for the bytes recorded. -/
structure AgreesOff (a : UInt16) (s t : Board PortBus) : Prop where
  cpu : Recording.Agree s.cpu t.cpu
  bus : FlatMemory.AgreesOff a s.bus t.bus

theorem agreesOff_withByte (s : Board PortBus) (a : UInt16) (b : UInt8) :
    s.AgreesOff a (s.map (FlatMemory.withByte a b)) where
  cpu := ⟨s.cpu.fetched, rfl⟩
  bus := FlatMemory.agreesOff_withByte a b s.bus

namespace AgreesOff

variable {a : UInt16} {s t : Board PortBus} (h : s.AgreesOff a t)
include h

theorem regs : t.cpu.regs = s.cpu.regs := by
  obtain ⟨bytes, hcpu⟩ := h.cpu
  rw [hcpu]
  rfl

/-- A change of the processor that does not depend on the bytes recorded. -/
theorem mapCpu (f : Cpu → Cpu)
    (hf : ∀ c bytes, Recording.Agree (f c) (f (Recording.setRecord c bytes))) :
    Board.AgreesOff a { s with cpu := f s.cpu } { t with cpu := f t.cpu } where
  cpu := h.cpu.map f hf
  bus := h.bus

theorem mapRegs (f : Registers → Registers) : (s.mapRegs f).AgreesOff a (t.mapRegs f) :=
  h.mapCpu (fun c => { c with regs := f c.regs }) fun _ bytes => ⟨bytes, rfl⟩

theorem jumpTo (pc : UInt16) : (s.jumpTo pc).AgreesOff a (t.jumpTo pc) :=
  h.mapRegs _

theorem push (w : UInt16) : (s.push w).AgreesOff a (t.push w) := by
  have hpushed := h.bus.pushWord s.cpu.regs.sp w
  rw [Board.push, Board.push, h.regs]
  exact { h.mapRegs ({ · with sp := s.cpu.regs.sp - 2 }) with bus := hpushed }

/-- A byte other than the one that the boards differ in is fetched alike. -/
theorem nextByte (hpc : s.cpu.regs.pc ≠ a) : t.nextByte = s.nextByte := by
  rw [Board.nextByte, Board.nextByte, h.regs]
  exact h.bus.read hpc

theorem skip : s.skip.AgreesOff a t.skip where
  cpu := by
    obtain ⟨bytes, hcpu⟩ := h.cpu
    exact ⟨bytes.push t.nextByte, by rw [Board.skip, hcpu]; rfl⟩
  bus := h.bus

theorem skipOpcode : s.skipOpcode.AgreesOff a t.skipOpcode :=
  h.skip.mapRegs _

theorem nextWord (hpc : s.cpu.regs.pc ≠ a) (hnext : s.cpu.regs.pc + 1 ≠ a) :
    t.nextWord = s.nextWord := by
  rw [Board.nextWord, Board.nextWord, h.nextByte hpc, h.skip.nextByte hnext]

/-- Branching keeps boards in agreement that differ in none of the operands. A return must not take
the byte that they differ in for part of its address. -/
theorem execute_branch (b : Branch) (hpc : s.cpu.regs.pc ≠ a) (hnext : s.cpu.regs.pc + 1 ≠ a)
    (hstack : b = .ret → s.cpu.regs.sp ≠ a ∧ s.cpu.regs.sp + 1 ≠ a) :
    (s.execute (.branch b)).AgreesOff a (t.execute (.branch b)) := by
  cases b with
  | jr =>
    change (s.skip.jumpTo (s.skip.cpu.regs.pc + displacement s.nextByte)).AgreesOff a
      (t.skip.jumpTo (t.skip.cpu.regs.pc + displacement t.nextByte))
    rw [h.nextByte hpc, h.skip.regs]
    exact h.skip.jumpTo _
  | jp =>
    change (s.skipWord.jumpTo s.nextWord).AgreesOff a (t.skipWord.jumpTo t.nextWord)
    rw [h.nextWord hpc hnext]
    exact h.skip.skip.jumpTo _
  | call =>
    change ((s.skipWord.push s.skipWord.cpu.regs.pc).jumpTo s.nextWord).AgreesOff a
      ((t.skipWord.push t.skipWord.cpu.regs.pc).jumpTo t.nextWord)
    have hskip : s.skipWord.AgreesOff a t.skipWord := h.skip.skip
    rw [h.nextWord hpc hnext, hskip.regs]
    exact (hskip.push _).jumpTo _
  | ret =>
    obtain ⟨hlo, hhi⟩ := hstack rfl
    have htop : t.stackTop = s.stackTop := by
      rw [stackTop, stackTop, h.regs]
      exact h.bus.readWord hlo hhi
    change (s.drop.jumpTo s.stackTop).AgreesOff a (t.drop.jumpTo t.stackTop)
    rw [htop]
    exact (h.mapRegs _).jumpTo _

/-- At the beginning of a step. -/
theorem started_begin : s.started.begin.AgreesOff a t.started.begin :=
  h.mapCpu (fun k => { k with
    extraCycles := 0
    eiShadow := false
    instructionAddress := k.regs.pc
    fetched := k.fetched.clear
    mode := .hl
    indexAddress := none }) fun _ bytes => ⟨bytes.clear, rfl⟩

/-- At the end of a step the charge is forgotten. -/
theorem settle_charge (n : Nat) : (s.charge n).settle.AgreesOff a t.settle :=
  h.mapCpu (fun k => { k with extraCycles := 0, mode := .hl, indexAddress := none })
    fun _ bytes => ⟨bytes, rfl⟩

end AgreesOff

/-! ### The step -/

/-- A step that executes the conditional branch `c`. -/
structure Branches (s : Board PortBus) (c : Conditional) : Prop where
  /-- The cost, with the difference for a branch that is taken. -/
  cycles : s.step.cycles =
    c.baseCycles + if c.taken s.cpu.regs then c.takenCycles else 0
  /-- If the branch is not taken, the program counter moves past it. -/
  untaken : c.taken s.cpu.regs = false →
    s.step.board.cpu.regs =
      { (c.counted s.cpu.regs).refresh with pc := s.cpu.regs.pc + .ofNat c.family.length } ∧
    s.step.board.cpu.control = { s.cpu.control with eiShadow := false } ∧
    s.step.board.bus = s.bus
  /-- If it is taken, the outcome is that of the unconditional branch in the same place, after
  which `DJNZ` has counted. -/
  taken : c.taken s.cpu.regs = true →
    (c.family = .ret → s.cpu.regs.sp ≠ s.cpu.regs.pc ∧ s.cpu.regs.sp + 1 ≠ s.cpu.regs.pc) →
    s.step.board.AgreesOff s.cpu.regs.pc
      ((s.map (FlatMemory.withByte s.cpu.regs.pc c.family.opcode)).step.board.mapRegs c.counted)

/-- Every conditional branch does this. -/
theorem branches {s : Board PortBus} (hrun : s.cpu.halted = false) {c : Conditional}
    (hop : s.nextByte = c.opcode) : s.Branches c := by
  have htaken : c.taken s.started.begin.skipOpcode.cpu.regs = c.taken s.cpu.regs := by
    cases c <;> rfl
  obtain ⟨-, hboard⟩ := step_of_plain hrun hop c.opcode_not_mem
  rw [c.primary_opcode, execute_conditional, htaken] at hboard
  constructor
  · have hcharge := extraCycles_execute_branch s.started.begin.skipOpcode c.family
    have hnone := extraCycles_skipOperand s.started.begin.skipOpcode c.family
    rw [cycles_step_of_plain hrun hop c.opcode_not_mem, c.primary_opcode, execute_conditional,
      htaken]
    split
    · exact congrArg (c.baseCycles + ·) ((congrArg (· + c.takenCycles) hcharge).trans
        (Nat.zero_add _))
    · exact congrArg (c.baseCycles + ·) hnone
  · intro hcc
    rw [if_neg (Bool.eq_false_iff.1 hcc)] at hboard
    rw [hboard]
    have hregs := s.started.begin.regs_skipOperand c.family
    refine ⟨?_, control_skipOperand _ _, bus_skipOperand _ _⟩
    refine (congrArg c.counted hregs).trans ?_
    cases c <;> rfl
  · intro hcc hstack
    have hplain :
        (s.map (FlatMemory.withByte s.cpu.regs.pc c.family.opcode)).nextByte = c.family.opcode :=
      FlatMemory.read_withByte_self _ _ s.bus
    obtain ⟨-, hbranch⟩ := step_of_plain
      (s := s.map (FlatMemory.withByte s.cpu.regs.pc c.family.opcode)) hrun hplain
      (opcode_not_mem_prefixBytes _)
    have hone : s.cpu.regs.pc + 1 ≠ s.cpu.regs.pc := by grind
    have htwo : s.cpu.regs.pc + 1 + 1 ≠ s.cpu.regs.pc := by grind
    have hagree := (s.agreesOff_withByte s.cpu.regs.pc c.family.opcode).started_begin.skipOpcode
    rw [hboard, if_pos hcc, hbranch, Decode.instruction_primary_opcode]
    exact ((hagree.execute_branch c.family hone htwo hstack).mapRegs c.counted).settle_charge _

end Board

end EightBit.Z80
