import EightBit.Proofs.Z80.Costs
import EightBit.Proofs.Z80.Length
import EightBit.Z80.PortBus
import Mathlib.Logic.Function.Iterate

/-!
# Repeating block instructions

A block instruction that repeats returns to its own opcode after each byte but the last, so that
each byte is a step of its own, which fetches the two opcodes again. This module has what such runs
have in common: the step, the addresses that they go through, how often they go on, and what the
refresh counter makes of it. What one step does to a byte is up to the instruction.

## Main definitions

* `Board.after`, `Board.cyclesOver`: a board after a number of steps, and the cycles they take.
* `BlockOp.repeating`, `Board.AtBlock`: the opcodes, and a board that is about to execute them.
* `Board.moved`, `Board.byteCount`: the pointers and the count of a run.
* `Registers.advanced`: the registers of a run that moves `HL` and counts in `BC`.
* `Bus.IsFlat`: every address is memory.

## Main results

* `Board.step_of_atBlock`: a step of a run.
* `Board.succ_mod_eq_iff`, `Board.count_eq_zero_iff`: when a run ends.
* `Board.after_induction`: what holds after each of a number of steps.
* `Board.cyclesOver_eq`: the cycles of a run.
* `Registers.toNat_refresh`: the refresh counter.
-/

namespace EightBit.Z80

/-! ### Opcodes -/

/-- The opcode of a repeating block instruction, behind `ED`. -/
def BlockOp.repeating : BlockOp → (increment : Bool) → UInt8
  | load, true => 0xB0
  | compare, true => 0xB1
  | input, true => 0xB2
  | output, true => 0xB3
  | load, false => 0xB8
  | compare, false => 0xB9
  | input, false => 0xBA
  | output, false => 0xBB

theorem Decode.ed_repeating (op : BlockOp) (increment : Bool) :
    ed (op.repeating increment) = ⟨12, .block op increment true⟩ := by
  cases op <;> cases increment <;> decide

/-! ### The refresh counter -/

/-- Bit 7 of the refresh counter is kept, and the others count. -/
theorem Registers.toNat_refresh (r : Registers) :
    r.refresh.r.toNat = r.r.toNat / 128 * 128 + (r.r.toNat + 1) % 128 :=
  forall_byte (P := fun v => ((v &&& 0x80) ||| ((v + 1) &&& 0x7F)).toNat =
    v.toNat / 128 * 128 + (v.toNat + 1) % 128) (by decide) r.r

namespace Board

/-! ### Pointers and counts -/

/-- A pointer that has moved up or down by a number of bytes. -/
def moved (increment : Bool) (a : UInt16) (k : Nat) : UInt16 :=
  if increment then a + UInt16.ofNat k else a - UInt16.ofNat k

@[simp] theorem moved_zero (increment : Bool) (a : UInt16) : moved increment a 0 = a := by
  cases increment with
  | true => exact UInt16.add_zero a
  | false => exact UInt16.sub_zero a

theorem moved_succ (increment : Bool) (a : UInt16) (k : Nat) :
    moved increment a (k + 1) = moved increment a k + stride increment := by
  rw [moved, moved, stride, UInt16.ofNat_add]
  cases increment with
  | true => exact (UInt16.add_assoc _ _ _).symm
  | false => grind

theorem moved_one (increment : Bool) (a : UInt16) :
    moved increment a 1 = a + stride increment := by
  rw [moved_succ, moved_zero]

/-- The bytes that a count in a pair of registers stands for: zero for all there are. -/
def byteCount (w : UInt16) : Nat :=
  if w = 0 then addressCount else w.toNat

theorem byteCount_pos (w : UInt16) : 0 < byteCount w := by
  rw [byteCount]
  split
  next => decide
  next h => exact Nat.pos_of_ne_zero fun hzero => h (UInt16.toNat_inj.1 hzero)

/-- A count modulo `n`, in which zero stands for `n`, is reached with the last step. -/
theorem succ_mod_eq_iff {n w k : Nat} (hw : w < n) (hk : k < if w = 0 then n else w) :
    (k + 1) % n = w ↔ k + 1 = if w = 0 then n else w := by
  by_cases hlast : k + 1 = n
  · rw [hlast, Nat.mod_self]
    split at hk <;> split <;> omega
  · have hlt : k + 1 < n := by
      split at hk <;> omega
    rw [Nat.mod_eq_of_lt hlt]
    split at hk <;> split <;> omega

/-- A count reaches zero with the last byte. -/
theorem count_eq_zero_iff {w : UInt16} {k : Nat} (hk : k < byteCount w) :
    w - UInt16.ofNat k - 1 = 0 ↔ k + 1 = byteCount w := by
  have hcount : byteCount w = if w.toNat = 0 then addressCount else w.toNat :=
    if_congr UInt16.toNat_inj.symm rfl rfl
  have hzero : w - UInt16.ofNat k - 1 = 0 ↔ UInt16.ofNat (k + 1) = w := by
    rw [UInt16.ofNat_add]
    grind
  rw [hcount] at hk ⊢
  rw [hzero, ← UInt16.toNat_inj, UInt16.toNat_ofNat']
  exact succ_mod_eq_iff w.toNat_lt hk

@[simp] theorem sub_byteCount (w : UInt16) : w - UInt16.ofNat (byteCount w) = 0 := by
  rw [byteCount]
  split
  next h => rw [h]; rfl
  next => rw [UInt16.ofNat_toNat, UInt16.sub_self]

end Board

namespace Registers

/-- The registers after `k` bytes of a run that moves `HL` and counts in `BC`. -/
def advanced (increment : Bool) (k : Nat) (r : Registers) : Registers :=
  (r.setHl (Board.moved increment r.hl k)).setBc (r.bc - UInt16.ofNat k)

theorem advanced_zero (increment : Bool) (r : Registers) : advanced increment 0 r = r := by
  have hcount : r.bc - UInt16.ofNat 0 = r.bc := UInt16.sub_zero _
  rw [advanced, Board.moved_zero, hcount]
  simp only [setHl, setBc, hl, bc, hiByte_word, loByte_word]

@[simp] theorem hl_advanced (increment : Bool) (k : Nat) (r : Registers) :
    (advanced increment k r).hl = Board.moved increment r.hl k :=
  word_hiByte_loByte _

@[simp] theorem bc_advanced (increment : Bool) (k : Nat) (r : Registers) :
    (advanced increment k r).bc = r.bc - UInt16.ofNat k :=
  word_hiByte_loByte _

theorem advanced_succ (increment : Bool) (k : Nat) (r : Registers) :
    advanced increment (k + 1) r = advanced increment 1 (advanced increment k r) := by
  have hcount : r.bc - UInt16.ofNat (k + 1) = r.bc - UInt16.ofNat k - UInt16.ofNat 1 := by
    rw [UInt16.ofNat_add]
    grind
  rw [advanced, hcount, Board.moved_succ, advanced.eq_def increment 1, bc_advanced, hl_advanced,
    Board.moved_one]
  rfl

theorem advanced_one (increment : Bool) (r : Registers) :
    advanced increment 1 r = (r.setHl (r.hl + Board.stride increment)).setBc (r.bc - 1) := by
  rw [advanced, Board.moved_one]
  rfl

end Registers

namespace Board

/-! ### Steps -/

variable {β : Type} [Bus β]

/-- The board after a number of steps. -/
def after (s : Board β) (n : Nat) : Board β :=
  (fun s => s.step.board)^[n] s

@[simp] theorem after_zero (s : Board β) : s.after 0 = s := rfl

theorem after_succ' (s : Board β) (n : Nat) : s.after (n + 1) = (s.after n).step.board :=
  Function.iterate_succ_apply' _ n s

/-- The cycles that a number of steps take. -/
def cyclesOver (s : Board β) : Nat → Nat
  | 0 => 0
  | n + 1 => s.cyclesOver n + (s.after n).step.cycles

/-- Steps that all take the same time. -/
theorem cyclesOver_eq_mul {s : Board β} {n c : Nat}
    (hcycles : ∀ k < n, (s.after k).step.cycles = c) : s.cyclesOver n = c * n := by
  induction n with
  | zero => rfl
  | succ n ih =>
    rw [cyclesOver, ih fun k hk => hcycles k (Nat.lt_succ_of_lt hk), hcycles n (Nat.lt_succ_self n),
      Nat.mul_succ]

/-- All steps of a run but the last one take longer. -/
theorem cyclesOver_eq {s : Board β} {n : Nat} (hn : 0 < n)
    (hcycles : ∀ k < n, (s.after k).step.cycles = if k + 1 = n then 16 else 21) :
    s.cyclesOver n = 21 * (n - 1) + 16 := by
  obtain ⟨m, rfl⟩ := Nat.exists_eq_add_one_of_ne_zero (Nat.ne_of_gt hn)
  have hrepeats : s.cyclesOver m = 21 * m := cyclesOver_eq_mul fun k hk => by
    rw [hcycles k (Nat.lt_succ_of_lt hk), if_neg (by omega)]
  rw [cyclesOver, hrepeats, hcycles m (Nat.lt_succ_self m), if_pos rfl]
  rfl

/-- What each of `n` steps leads on, holds after all of them. -/
theorem after_induction {s : Board β} {n : Nat} {P : Nat → Board β → Prop} (hzero : P 0 s)
    (hstep : ∀ k < n, P k (s.after k) → P (k + 1) (s.after k).step.board) {k : Nat} (hk : k ≤ n) :
    P k (s.after k) := by
  induction k with
  | zero => exact hzero
  | succ k ih =>
    rw [after_succ']
    exact hstep k hk (ih (Nat.le_of_succ_le hk))

/-- A repeating block instruction is what the board finds at its program counter. -/
structure AtBlock (s : Board β) (op : BlockOp) (increment : Bool) : Prop where
  running : s.cpu.halted = false
  first : s.nextByte = 0xED
  second : s.load (s.cpu.regs.pc + 1) = op.repeating increment

/-- The board after the two opcodes of an instruction behind `ED`. -/
def pastEd (s : Board β) : Board β :=
  (s.started.begin.skipOpcode.setMode .hl).skipOpcode

theorem pc_blockByte (s : Board β) (op : BlockOp) (increment : Bool) :
    (s.blockByte op increment).2.cpu.regs.pc = s.cpu.regs.pc := by
  cases op <;> rfl

theorem pastEd_eq (s : Board β) :
    s.pastEd = { s with
      cpu := { s.cpu with
        regs := { s.cpu.regs with
          pc := s.cpu.regs.pc + 2
          r := s.cpu.regs.refresh.refresh.r }
        eiShadow := false
        mode := .hl
        indexAddress := none
        extraCycles := 0
        instructionAddress := s.cpu.regs.pc
        fetched := (s.cpu.fetched.clear.push s.nextByte).push (s.load (s.cpu.regs.pc + 1)) } } :=
  s.pastOpcodes_eq .hl

/-- A step of a run handles one byte, and goes back to the opcodes if there are more. -/
theorem step_of_atBlock {s : Board β} {op : BlockOp} {increment : Bool}
    (h : s.AtBlock op increment) :
    s.step = ⟨if (s.pastEd.blockByte op increment).1 then 21 else 16,
      (if (s.pastEd.blockByte op increment).1
        then (s.pastEd.blockByte op increment).2.jumpTo s.cpu.regs.pc
        else (s.pastEd.blockByte op increment).2).settle,
      some (.hl, .block op increment true)⟩ := by
  have hentry : Decode.ed (s.started.begin.skipOpcode.setMode .hl).nextByte =
      ⟨12, .block op increment true⟩ := by
    rw [← Decode.ed_repeating, ← h.second]
    rfl
  have hcycles : s.started.begin.decodeFirst.cycles = 4 :=
    congrArg (fun b => (Decode.primary b).cycles) h.first
  have hpc : (s.pastEd.blockByte op increment).2.cpu.regs.pc - 2 = s.cpu.regs.pc := by
    rw [pc_blockByte, pastEd_eq]
    exact UInt16.add_sub_cancel _ 2
  have hextra : (s.pastEd.blockByte op increment).2.cpu.extraCycles = 0 :=
    extraCycles_blockByte _ _ _
  have hblock : (s.pastEd.execute (.block op increment true)) =
      if (s.pastEd.blockByte op increment).1
        then ((s.pastEd.blockByte op increment).2.jumpTo s.cpu.regs.pc).charge repeatCost
        else (s.pastEd.blockByte op increment).2 := by
    rw [← hpc]
    exact s.pastEd.block_eq op increment true
  rw [step_eq_execute h.running, decoded_of_ed (s := s.started.begin) h.first, Decoding.lookUp,
    hentry, hcycles, Decoding.execute]
  change Stepped.mk (16 + (s.pastEd.execute (.block op increment true)).cpu.extraCycles)
    (s.pastEd.execute (.block op increment true)).settle _ = _
  rw [hblock]
  cases (s.pastEd.blockByte op increment).1 with
  | false => exact congrArg (fun n => Stepped.mk (16 + n) _ _) hextra
  | true => exact congrArg (fun n => Stepped.mk (16 + (n + repeatCost)) _ _) hextra

end Board

/-! ### Flat memory -/

/-- Every address of the surroundings is memory, the contents of which are given by `memory`. -/
structure Bus.IsFlat {β : Type} [Bus β] (memory : β → Memory) : Prop where
  read (bus : β) (a : UInt16) : read bus a = (memory bus).read a
  write (bus : β) (a : UInt16) (v : UInt8) : memory (write bus a v) = (memory bus).write a v

theorem PortBus.isFlat : Bus.IsFlat fun bus : PortBus => bus.flat.memory where
  read _ _ := rfl
  write _ _ _ := rfl

theorem LineBus.isFlat : Bus.IsFlat fun bus : LineBus => bus.flat.memory where
  read _ _ := rfl
  write _ _ _ := rfl

end EightBit.Z80
