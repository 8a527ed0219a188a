import EightBit.Proofs.Memory
import EightBit.Proofs.Z80.BlockRuns

/-!
# Copying a block

The repeating copy instructions of the Z80 move a block of memory byte by byte, each byte in a step
of its own, which reads the opcodes again and what the bytes before have made of memory. As long as
the block does not overwrite the instruction that copies it, the run is over when the count is used
up. Source and target may overlap, and both wrap at the end of memory.

## Main definitions

* `Board.copied`: memory after a number of bytes, one after the other.
* `Board.copyPlan`: a run, byte by byte.
* `Board.KeepsOpcodes`, `Board.CopiesBlock`: what a run must leave alone, and what it does.

## Main results

* `Board.copied_true`: upwards, the copy of a block within memory.
* `Board.handlesByte_copy`, `Board.handles_copyPlan`: one byte.
* `Board.copiesBlock`: a whole run.
-/

namespace EightBit.Z80

namespace Registers

/-- The registers with the pointers and the count of a copy after `k` bytes. -/
def copied (increment : Bool) (k : Nat) (r : Registers) : Registers :=
  (r.advanced increment k).setDe (Board.moved increment r.de k)

theorem copied_zero (increment : Bool) (r : Registers) : copied increment 0 r = r := by
  rw [copied, advanced_zero, Board.moved_zero]
  simp only [setDe, de, hiByte_word, loByte_word]

@[simp] theorem hl_copied (increment : Bool) (k : Nat) (r : Registers) :
    (copied increment k r).hl = Board.moved increment r.hl k :=
  hl_advanced increment k r

@[simp] theorem de_copied (increment : Bool) (k : Nat) (r : Registers) :
    (copied increment k r).de = Board.moved increment r.de k :=
  word_hiByte_loByte _

@[simp] theorem bc_copied (increment : Bool) (k : Nat) (r : Registers) :
    (copied increment k r).bc = r.bc - UInt16.ofNat k :=
  bc_advanced increment k r

theorem copied_succ (increment : Bool) (k : Nat) (r : Registers) :
    copied increment (k + 1) r = copied increment 1 (copied increment k r) := by
  rw [copied, advanced_succ, Board.moved_succ, copied.eq_def increment 1, de_copied,
    Board.moved_one]
  rfl

end Registers

namespace Board

/-! ### Bytes one after the other -/

/-- Memory after `n` bytes, one after the other, have been copied from where one pointer moves to
where the other does. -/
def copied (increment : Bool) (source target : UInt16) (n : Nat) (m : Memory) : Memory :=
  (List.range n).foldl
    (fun m k => m.write (moved increment target k) (m.read (moved increment source k))) m

theorem copied_succ (increment : Bool) (source target : UInt16) (n : Nat) (m : Memory) :
    copied increment source target (n + 1) m =
      (copied increment source target n m).write (moved increment target n)
        ((copied increment source target n m).read (moved increment source n)) := by
  rw [copied, List.range_succ, List.foldl_append]
  rfl

/-- Upwards, this is how a block is copied within memory. -/
theorem copied_true (source target : UInt16) (n : Nat) (m : Memory) :
    copied true source target n m = m.copy source target n := by
  have hshift (a : UInt16) (k : Nat) : moved true a (k + 1) = moved true (a + 1) k := by
    change a + UInt16.ofNat (k + 1) = a + 1 + UInt16.ofNat k
    rw [UInt16.ofNat_add, UInt16.add_assoc, UInt16.add_comm (UInt16.ofNat k)]
    rfl
  induction n generalizing source target m with
  | zero => rfl
  | succ n ih =>
    rw [Memory.copy, ← ih, copied, copied, List.range_succ_eq_map, List.foldl_cons,
      List.foldl_map]
    simp only [Nat.succ_eq_add_one, hshift, moved_zero]

/-- A byte that is no target is kept. -/
theorem read_copied_of_ne {increment : Bool} {target a : UInt16} {n : Nat}
    (h : ∀ k < n, moved increment target k ≠ a) (source : UInt16) (m : Memory) :
    (copied increment source target n m).read a = m.read a := by
  induction n with
  | zero => rfl
  | succ n ih =>
    rw [copied_succ, Memory.read_write_of_ne _ _ (h n (Nat.lt_succ_self n))]
    exact ih fun k hk => h k (Nat.lt_succ_of_lt hk)

/-- The flags that copying changes. -/
def copyFlags : UInt8 :=
  Flag.h.mask ||| Flag.n.mask ||| Flag.pv.mask

/-- The flags after a byte has been copied: the parity shows whether there are more bytes. -/
def flagsOfCopy (more : Bool) : List (Flag × Bool) :=
  [(.h, false), (.n, false), (.pv, more)]

theorem masks_flagsOfCopy (more : Bool) : Flag.masks (flagsOfCopy more) = copyFlags := by
  simp only [flagsOfCopy, Flag.masks, List.foldr]
  decide

/-- The last byte leaves the flags of the copy clear. -/
theorem f_setFlags_flagsOfCopy_false (r : Registers) :
    (r.setFlags (flagsOfCopy false)).f = r.f &&& ~~~copyFlags :=
  forall_byte (P := fun f =>
    ((f &&& ~~~Flag.h.mask) &&& ~~~Flag.n.mask) &&& ~~~Flag.pv.mask = f &&& ~~~copyFlags)
    (by decide) r.f

/-! ### One byte -/

variable {β : Type} {increment : Bool}

section OneByte

variable [Bus β] {t : Board β}

theorem copyByte_eq (t : Board β) (increment : Bool) :
    t.copyByte increment = (t.cpu.regs.bc - 1 != 0, {
      cpu := { t.cpu with
        regs := (t.cpu.regs.copied increment 1).setFlags
          (flagsOfCopy (t.cpu.regs.bc - 1 != 0)) }
      bus := write t.bus t.cpu.regs.de (t.load t.cpu.regs.hl) }) := by
  rw [Registers.copied, Registers.advanced_one, moved_one]
  rfl

/-- A step copies a byte. The count tells whether there are more. -/
theorem handlesByte_copy (h : t.AtBlock .load increment) :
    t.HandlesByte .load increment (t.cpu.regs.bc - 1 != 0)
      ((t.cpu.regs.copied increment 1).setFlags (flagsOfCopy (t.cpu.regs.bc - 1 != 0)))
      (write t.bus t.cpu.regs.de (t.load t.cpu.regs.hl)) := by
  refine handlesByte h ?_
  rw [blockByte, copyByte_eq, pastEd_eq]
  rfl

end OneByte

/-! ### A run -/

variable {memory : β → Memory} {s t : Board β} {k : Nat}

/-- No byte of a run, except perhaps the last one, changes the opcodes. -/
def KeepsOpcodes (memory : β → Memory) (increment : Bool) (s : Board β) : Prop :=
  ∀ k < byteCount s.cpu.regs.bc, ∀ a ∈ [s.cpu.regs.pc, s.cpu.regs.pc + 1],
    (copied increment s.cpu.regs.hl s.cpu.regs.de k (memory s.bus)).read a = (memory s.bus).read a

/-- It is enough that no byte is copied to the opcodes. -/
theorem keepsOpcodes_of_ne (h : ∀ k < byteCount s.cpu.regs.bc,
    moved increment s.cpu.regs.de k ∉ [s.cpu.regs.pc, s.cpu.regs.pc + 1]) :
    s.KeepsOpcodes memory increment :=
  fun _ hk _ ha => read_copied_of_ne
    (fun i hi heq => h i (Nat.lt_trans hi hk) (heq ▸ ha)) _ _

variable [Bus β]

/-- The surroundings after a number of bytes, one after the other. -/
def copiedBus (increment : Bool) (s : Board β) : Nat → β
  | 0 => s.bus
  | k + 1 =>
    let bus := s.copiedBus increment k
    write bus (moved increment s.cpu.regs.de k) (read bus (moved increment s.cpu.regs.hl k))

theorem memory_copiedBus (hflat : Bus.IsFlat memory) (k : Nat) :
    memory (s.copiedBus increment k) =
      copied increment s.cpu.regs.hl s.cpu.regs.de k (memory s.bus) := by
  induction k with
  | zero => rfl
  | succ k ih => rw [copiedBus, hflat.write, hflat.read, ih, copied_succ]

/-- A run finds its opcodes again. -/
theorem KeepsOpcodes.read_copiedBus (h : s.KeepsOpcodes memory increment)
    (hflat : Bus.IsFlat memory) (hk : k < byteCount s.cpu.regs.bc) {a : UInt16}
    (ha : a ∈ [s.cpu.regs.pc, s.cpu.regs.pc + 1]) :
    read (s.copiedBus increment k) a = s.load a := by
  rw [hflat.read, memory_copiedBus hflat, h k hk a ha, load, hflat.read]

/-- A copy moves the pointers and counts, and sets the flags for each byte. -/
def copyPlan (increment : Bool) (s : Board β) : BlockPlan β where
  regs k := s.cpu.regs.copied increment k
  bus k := s.copiedBus increment k
  flags k := flagsOfCopy (k + 1 < byteCount s.cpu.regs.bc)
  mask := copyFlags
  f_regs _ := rfl
  masks_flags _ := masks_flagsOfCopy _

section Run

variable (h : (s.copyPlan increment).Reached k s t)

include h

/-- Another byte is one byte more. -/
theorem copiedBus_succ_of_reached :
    write t.bus t.cpu.regs.de (t.load t.cpu.regs.hl) = s.copiedBus increment (k + 1) := by
  have hhl : t.cpu.regs.hl = moved increment s.cpu.regs.hl k := by
    rw [h.regs]
    exact Registers.hl_copied increment k s.cpu.regs
  have hde : t.cpu.regs.de = moved increment s.cpu.regs.de k := by
    rw [h.regs]
    exact Registers.de_copied increment k s.cpu.regs
  rw [load, hhl, hde, h.bus]
  rfl

/-- Every byte of a copy is handled as planned. -/
theorem handles_copyPlan (ht : t.AtBlock .load increment) (hk : k < byteCount s.cpu.regs.bc) :
    (s.copyPlan increment).Handles .load increment (byteCount s.cpu.regs.bc) k t := by
  have hbc : t.cpu.regs.bc = s.cpu.regs.bc - UInt16.ofNat k := by
    rw [h.regs]
    exact Registers.bc_copied increment k s.cpu.regs
  have hagain : (t.cpu.regs.bc - 1 != 0) = decide (k + 1 < byteCount s.cpu.regs.bc) := by
    rw [hbc, Bool.eq_iff_iff, bne_iff_ne, decide_eq_true_iff, ne_eq, count_eq_zero_iff hk]
    omega
  have hregs : t.cpu.regs.copied increment 1 =
      { s.cpu.regs.copied increment (k + 1) with
        pc := t.cpu.regs.pc
        f := t.cpu.regs.f
        r := t.cpu.regs.r } := by
    rw [Registers.copied_succ increment k, h.regs]
    rfl
  have hbyte := handlesByte_copy ht
  rwa [hagain, hregs, copiedBus_succ_of_reached h] at hbyte

end Run

/-- The run of a repeating copy instruction over `n` bytes. -/
structure CopiesBlock (memory : β → Memory) (increment : Bool) (n : Nat) (s : Board β) :
    Prop where
  /-- Every step executes the instruction, and stays on it as long as there are bytes. -/
  executed : ∀ k < n, (s.after k).cpu.regs.pc = s.cpu.regs.pc ∧
    (s.after k).step.executed = some (.hl, .block .load increment true)
  cycles : s.cyclesOver n = 21 * (n - 1) + 16
  memory : memory (s.after n).bus =
    copied increment s.cpu.regs.hl s.cpu.regs.de n (memory s.bus)
  regs : (s.after n).cpu.regs =
    { ((s.cpu.regs.setHl (moved increment s.cpu.regs.hl n)).setDe
        (moved increment s.cpu.regs.de n)).setBc 0 with
      pc := s.cpu.regs.pc + 2
      f := s.cpu.regs.f &&& ~~~copyFlags
      r := (s.after n).cpu.regs.r }
  refresh : (s.after n).cpu.regs.r.toNat =
    s.cpu.regs.r.toNat / 128 * 128 + (s.cpu.regs.r.toNat + 2 * n) % 128
  halted : (s.after n).cpu.halted = s.cpu.halted
  iff1 : (s.after n).cpu.iff1 = s.cpu.iff1
  iff2 : (s.after n).cpu.iff2 = s.cpu.iff2
  im : (s.after n).cpu.im = s.cpu.im

/-- A processor that runs copies as many bytes as `BC` says, upwards or downwards. -/
theorem copiesBlock (hflat : Bus.IsFlat memory) (hs : s.AtBlock .load increment)
    (hkeeps : s.KeepsOpcodes memory increment) :
    s.CopiesBlock memory increment (byteCount s.cpu.regs.bc) := by
  have hn := byteCount_pos s.cpu.regs.bc
  have hrun := BlockPlan.runsBlock (p := s.copyPlan increment) hs hn
    (Registers.copied_zero _ _) rfl (fun _ hk _ ha => hkeeps.read_copiedBus hflat hk ha)
    fun k hk t ht h => handles_copyPlan h ht hk
  have hlast : byteCount s.cpu.regs.bc - 1 + 1 = byteCount s.cpu.regs.bc := Nat.sub_add_cancel hn
  exact {
    executed := hrun.executed
    cycles := hrun.cycles
    memory := by rw [hrun.bus]; exact memory_copiedBus hflat _
    regs := by
      have hregs := hrun.regs
      simp only [copyPlan, hlast, Nat.lt_irrefl, decide_false] at hregs
      rw [Registers.setFlags_eq, f_setFlags_flagsOfCopy_false, Registers.copied,
        Registers.advanced, sub_byteCount] at hregs
      exact hregs
    refresh := hrun.refresh
    halted := hrun.halted
    iff1 := hrun.iff1
    iff2 := hrun.iff2
    im := hrun.im }

/-- `LDIR` at address zero, which fills three bytes with the one in front of them. -/
def fillRun : Board PortBus where
  cpu := { Cpu.create with
    regs := { Cpu.resetRegisters with b := 0, c := 3, d := 0x10, e := 1, h := 0x10, l := 0 } }
  bus := .ofFlat (.ofMemory ((Memory.blank.store 0 [0xED, 0xB0]).write 0x1000 0xAB) .silent)

theorem opcodes_fillRun : fillRun.nextByte = 0xED ∧ fillRun.load 1 = 0xB0 := by
  have hload (a : UInt16) (ha : 0x1000 ≠ a) : fillRun.load a = [0xED, 0xB0].getD a.toNat 0 :=
    (Memory.read_write_of_ne _ _ ha).trans (Memory.read_store_zero_blank a (by decide))
  exact ⟨hload 0 (by decide), hload 1 (by decide)⟩

theorem keepsOpcodes_fillRun : fillRun.KeepsOpcodes (·.flat.memory) true :=
  keepsOpcodes_of_ne (by decide)

theorem copiesBlock_fillRun :
    Bus.IsFlat (fun bus : PortBus => bus.flat.memory) ∧ fillRun.AtBlock .load true ∧
      fillRun.KeepsOpcodes (·.flat.memory) true ∧ fillRun.CopiesBlock (·.flat.memory) true 3 := by
  have hat : fillRun.AtBlock .load true := ⟨rfl, opcodes_fillRun.1, opcodes_fillRun.2⟩
  exact ⟨PortBus.isFlat, hat, keepsOpcodes_fillRun,
    copiesBlock PortBus.isFlat hat keepsOpcodes_fillRun⟩

/-- The same instruction in front of a halted processor. -/
def haltedFillRun : Board PortBus :=
  { fillRun with cpu := { fillRun.cpu with halted := true } }

/-- A halted processor copies nothing. -/
theorem not_forall_copiesBlock :
    ¬∀ s : Board PortBus, s.nextByte = 0xED →
      s.load (s.cpu.regs.pc + 1) = BlockOp.load.repeating true →
      s.KeepsOpcodes (·.flat.memory) true →
      s.CopiesBlock (·.flat.memory) true (byteCount s.cpu.regs.bc) := by
  intro h
  have hrun := h haltedFillRun opcodes_fillRun.1 opcodes_fillRun.2 keepsOpcodes_fillRun
  have hexecuted := (hrun.executed 0 (byteCount_pos _)).2
  rw [after_zero, step_of_halted rfl] at hexecuted
  exact Option.some_ne_none _ hexecuted.symm

end Board

end EightBit.Z80
