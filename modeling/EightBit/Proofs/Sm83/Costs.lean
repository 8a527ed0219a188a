import EightBit.Proofs.Bits
import EightBit.Proofs.Sm83.Control

/-!
# What a step of the SM83 costs

The cost of a step is that of its opcode bytes and, for a conditional branch that is taken, a
charge. This module goes through the instructions once for the charge; with it goes the state that a
reset leads back to, which no instruction changes. No step costs more than six machine cycles.

## Main definitions

* `Instruction.branchCost`, `Board.surcharge`: the charge of a branch that is taken, and that of an
  instruction.
* `Board.ledger`: the cycles charged so far, with the state that a reset leads back to.

## Main results

* `Board.ledger_execute`: instruction by instruction.
* `Board.cycles_step_of_awake`: the cost of a step that executes an instruction.
* `Board.cycles_step_le`: no step costs more than six machine cycles.
* `Board.boot_step`, `Board.boot_handleInterrupts`: a reset always leads back to the same state.
-/

namespace EightBit.Sm83

/-- What a conditional branch costs more when it is taken. -/
def Instruction.branchCost : Instruction → Nat
  | .jrIf _ => takenCost.jr
  | .jpIf _ => takenCost.jp
  | .callIf _ => takenCost.call
  | .retIf _ => takenCost.ret
  | _ => 0

/-- The most that a step can cost. -/
def maxStepCycles : Nat := 24

/-- No opcode costs more with its branch taken. -/
theorem Decode.cost_primary_le :
    ∀ op, (primary op).cycles + (primary op).instruction.branchCost ≤ maxStepCycles :=
  forall_byte (by decide)

/-- Behind the prefix there are no branches. -/
theorem Decode.cost_cb_le :
    ∀ op, 4 + (cb op).cycles + (cb op).instruction.branchCost ≤ maxStepCycles :=
  forall_byte (by decide)

theorem Decode.cycles_prefixCb :
    ∀ op, (primary op).instruction = .prefixCb → (primary op).cycles = 4 :=
  forall_byte (by decide)

namespace Board

/-- What an instruction is charged beyond its opcode: the difference for a branch taken. -/
def surcharge {β : Type} (s : Board β) (i : Instruction) : Nat :=
  match i with
  | .jrIf cc | .jpIf cc | .callIf cc | .retIf cc => if s.cpu.regs.holds cc then i.branchCost else 0
  | _ => 0

theorem surcharge_le {β : Type} (s : Board β) (i : Instruction) : s.surcharge i ≤ i.branchCost := by
  cases i with
  | jrIf | jpIf | callIf | retIf =>
    rw [surcharge]
    split
    · exact Nat.le_refl _
    · exact Nat.zero_le _
  | _ => exact Nat.le_refl _

/-- The cycles charged so far, and the state that a reset leads back to. -/
def ledger {β : Type} (s : Board β) : Nat × BootState :=
  (s.cpu.extraCycles, s.cpu.boot)

section

variable {β : Type} (s : Board β)

/-! ### Parts of an instruction -/

@[simp] theorem ledger_mapRegs (f : Registers → Registers) : (s.mapRegs f).ledger = s.ledger := rfl

@[simp] theorem ledger_jumpTo (pc : UInt16) : (s.jumpTo pc).ledger = s.ledger := rfl

@[simp] theorem ledger_drop : s.drop.ledger = s.ledger := rfl

theorem ledger_ite_jumpTo (taken : Bool) (a : UInt16) :
    (if taken then s.jumpTo a else s).ledger = s.ledger := by
  cases taken <;> rfl

theorem ledger_chargeIf (taken : Bool) (n : Nat) :
    (s.chargeIf taken n).ledger = (s.ledger.1 + if taken then n else 0, s.ledger.2) := by
  cases taken <;> rfl

theorem ledger_scheduleEnable : s.scheduleEnable.ledger = s.ledger := by
  unfold scheduleEnable
  split <;> rfl

variable [Bus β]

@[simp] theorem ledger_store (a : UInt16) (b : UInt8) : (s.store a b).ledger = s.ledger := rfl

@[simp] theorem ledger_skip : s.skip.ledger = s.ledger := by
  unfold skip
  dsimp only
  split <;> rfl

@[simp] theorem ledger_skipWord : s.skipWord.ledger = s.ledger := by
  rw [skipWord, ledger_skip, ledger_skip]

@[simp] theorem ledger_push (w : UInt16) : (s.push w).ledger = s.ledger := rfl

@[simp] theorem ledger_setOperand (x : Reg8) (v : UInt8) :
    (s.setOperand x v).ledger = s.ledger := by
  cases x <;> rfl

@[simp] theorem ledger_update (x : Reg8) (f : Registers → UInt8 → UInt8)
    (g : Registers → UInt8 → Registers) : (s.update x f g).ledger = s.ledger := by
  rw [update, ledger_setOperand, ledger_mapRegs]

@[simp] theorem ledger_jumpRelative (taken : Bool) : (s.jumpRelative taken).ledger = s.ledger :=
  (ledger_ite_jumpTo _ taken _).trans s.ledger_skip

@[simp] theorem ledger_jumpAbsolute (taken : Bool) : (s.jumpAbsolute taken).ledger = s.ledger :=
  (ledger_ite_jumpTo _ taken _).trans s.ledger_skipWord

@[simp] theorem ledger_callIf (taken : Bool) : (s.callIf taken).ledger = s.ledger := by
  cases taken with
  | false => exact s.ledger_skipWord
  | true => exact s.ledger_skipWord

@[simp] theorem ledger_returnIf (taken : Bool) : (s.returnIf taken).ledger = s.ledger := by
  cases taken <;> rfl

theorem ledger_halt : s.halt.ledger = s.ledger := by
  unfold halt
  split <;> rfl

/-! ### The instruction set -/

theorem ledger_execute (i : Instruction) :
    (s.execute i).ledger = (s.ledger.1 + s.surcharge i, s.ledger.2) := by
  cases i with
  | halt => exact s.ledger_halt
  | ei => exact s.ledger_scheduleEnable
  | stop => exact s.ledger_skip
  | storeSp => exact s.ledger_skipWord
  | di | reti | invalid => rfl
  | jrIf cc => rw [execute, ledger_chargeIf, ledger_jumpRelative]; rfl
  | jpIf cc => rw [execute, ledger_chargeIf, ledger_jumpAbsolute]; rfl
  | callIf cc => rw [execute, ledger_chargeIf, ledger_callIf]; rfl
  | retIf cc => rw [execute, ledger_chargeIf, ledger_returnIf]; rfl
  | _ => simp [execute, surcharge]

theorem ledger_decoded : s.decoded.2.ledger = s.ledger := by
  unfold decoded
  dsimp only
  split
  · rw [ledger_skip, ledger_skip]
  · rw [ledger_skip]

/-! ### Steps -/

/-- The cost of a step that executes an instruction. -/
theorem cycles_step_of_awake (h : s.cpu.halted = false) (h' : s.cpu.stopped = false) :
    s.step.cycles = s.uncharge.begin.decoded.1.cycles +
      s.uncharge.begin.decoded.2.surcharge s.uncharge.begin.decoded.1.instruction := by
  have hledger := ledger_execute s.uncharge.begin.decoded.2
    s.uncharge.begin.decoded.1.instruction
  rw [ledger_decoded] at hledger
  have hextra := congrArg Prod.fst hledger
  rw [step_of_awake h h', executeNext]
  exact congrArg (s.uncharge.begin.decoded.1.cycles + ·) (hextra.trans (Nat.zero_add _))

theorem cost_decoded_le :
    s.decoded.1.cycles + s.decoded.1.instruction.branchCost ≤ maxStepCycles := by
  rw [decoded_fst, Decode.entry]
  split
  next h =>
    have hcb := Decode.cost_cb_le (s.load s.skip.cpu.regs.pc)
    rwa [Decode.cycles_prefixCb _ h]
  next => exact Decode.cost_primary_le _

/-- No step costs more than six machine cycles. -/
theorem cycles_step_le : s.step.cycles ≤ maxStepCycles := by
  have hidle : idleCycles ≤ maxStepCycles := by decide
  rcases Bool.eq_false_or_eq_true s.cpu.halted with h | h
  · rwa [step_of_halted h]
  rcases Bool.eq_false_or_eq_true s.cpu.stopped with h' | h'
  · rwa [step_of_stopped h h']
  · rw [cycles_step_of_awake s h h']
    exact Nat.le_trans (Nat.add_le_add_left (surcharge_le _ _) _) (cost_decoded_le _)

theorem boot_watchJoypad : s.watchJoypad.cpu.boot = s.cpu.boot := by
  unfold watchJoypad
  split <;> rfl

theorem boot_advanceSchedule (cpu : Cpu) :
    cpu.advanceSchedule.boot = cpu.boot := by
  unfold Cpu.advanceSchedule
  split <;> rfl

/-- A reset after a step leads back to where it led before. -/
theorem boot_step : s.step.board.cpu.boot = s.cpu.boot := by
  rcases Bool.eq_false_or_eq_true s.cpu.halted with h | h
  · rw [step_of_halted h]
    rfl
  rcases Bool.eq_false_or_eq_true s.cpu.stopped with h' | h'
  · rw [step_of_stopped h h', boot_watchJoypad]
    rfl
  · have hledger := ledger_execute s.uncharge.begin.decoded.2
      s.uncharge.begin.decoded.1.instruction
    rw [ledger_decoded] at hledger
    rw [step_of_awake h h', executeNext]
    exact (boot_advanceSchedule _).trans (congrArg Prod.snd hledger)

theorem boot_handleInterrupts : s.handleInterrupts.2.cpu.boot = s.cpu.boot := by
  rcases Bool.eq_false_or_eq_true s.accepts with h | h
  · rw [handleInterrupts_of_accepts h]
    unfold dispatch
    dsimp only
    split <;> rfl
  · rw [handleInterrupts_of_not_accepts h]
    dsimp only
    split <;> rfl

end

end Board

end EightBit.Sm83
