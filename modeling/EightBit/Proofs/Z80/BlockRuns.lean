import EightBit.Proofs.Z80.Blocks
import EightBit.Proofs.Z80.Flags

/-!
# Runs of block instructions

What the repeating block instructions do differs from one to the other only in what they make of a
byte. Here a run is told by the registers and the surroundings after each of its bytes and by the
flags that each byte leaves. A board follows that plan to its end if every step handles its byte as
planned and no byte overwrites the opcodes.

## Main definitions

* `BlockPlan`: what a run does, byte by byte.
* `Board.HandlesByte`: what a step does to a byte.
* `BlockPlan.Reached`: a board after a number of bytes.
* `Board.RunsBlock`: what a whole run does.

## Main results

* `Board.handlesByte`: a step from what the instruction does to a byte.
* `BlockPlan.Reached.step`: one byte of a plan.
* `BlockPlan.runsBlock`: a whole run.
-/

namespace EightBit.Z80

/-- The effect of a block instruction, byte by byte: the registers and the surroundings after `k`
bytes, apart from the program counter, the flags and the refresh counter, and the flags that byte
`k` leaves, which are the same ones for every byte. -/
structure BlockPlan (β : Type) where
  regs : Nat → Registers
  bus : Nat → β
  flags : Nat → List (Flag × Bool)
  mask : UInt8
  f_regs (k : Nat) : (regs k).f = (regs 0).f
  masks_flags (k : Nat) : Flag.masks (flags k) = mask

/-- A step handles a byte: it leaves the surroundings `bus` and the registers `regs` behind, except
that the program counter goes back to the opcodes if there is more to do. -/
structure Board.HandlesByte {β : Type} [Bus β] (op : BlockOp) (increment again : Bool)
    (regs : Registers) (bus : β) (s : Board β) : Prop where
  executed : s.step.executed = some (.hl, .block op increment true)
  cycles : s.step.cycles = if again then 21 else 16
  bus : s.step.board.bus = bus
  regs : s.step.board.cpu.regs =
    { regs with
      pc := if again then s.cpu.regs.pc else s.cpu.regs.pc + 2
      r := s.cpu.regs.refresh.refresh.r }
  halted : s.step.board.cpu.halted = s.cpu.halted
  iff1 : s.step.board.cpu.iff1 = s.cpu.iff1
  iff2 : s.step.board.cpu.iff2 = s.cpu.iff2
  im : s.step.board.cpu.im = s.cpu.im

/-- The board `t` is `s` after `k` bytes of a run. -/
structure BlockPlan.Reached {β : Type} (p : BlockPlan β) (k : Nat) (s t : Board β) : Prop where
  bus : t.bus = p.bus k
  regs : t.cpu.regs = { p.regs k with pc := t.cpu.regs.pc, f := t.cpu.regs.f, r := t.cpu.regs.r }
  otherFlags : t.cpu.regs.f &&& ~~~p.mask = (p.regs k).f &&& ~~~p.mask
  refresh : t.cpu.regs.r.toNat =
    s.cpu.regs.r.toNat / 128 * 128 + (s.cpu.regs.r.toNat + 2 * k) % 128
  halted : t.cpu.halted = s.cpu.halted
  iff1 : t.cpu.iff1 = s.cpu.iff1
  iff2 : t.cpu.iff2 = s.cpu.iff2
  im : t.cpu.im = s.cpu.im

/-- The run of a repeating block instruction over `n` bytes, which leaves the surroundings `bus` and
the registers `regs` behind. -/
structure Board.RunsBlock {β : Type} [Bus β] (op : BlockOp) (increment : Bool) (n : Nat)
    (regs : Registers) (bus : β) (s : Board β) : Prop where
  /-- Every step executes the instruction, and stays on it as long as there are bytes. -/
  executed : ∀ k < n, (s.after k).cpu.regs.pc = s.cpu.regs.pc ∧
    (s.after k).step.executed = some (.hl, .block op increment true)
  cycles : s.cyclesOver n = 21 * (n - 1) + 16
  bus : (s.after n).bus = bus
  regs : (s.after n).cpu.regs =
    { regs with pc := s.cpu.regs.pc + 2, r := (s.after n).cpu.regs.r }
  refresh : (s.after n).cpu.regs.r.toNat =
    s.cpu.regs.r.toNat / 128 * 128 + (s.cpu.regs.r.toNat + 2 * n) % 128
  halted : (s.after n).cpu.halted = s.cpu.halted
  iff1 : (s.after n).cpu.iff1 = s.cpu.iff1
  iff2 : (s.after n).cpu.iff2 = s.cpu.iff2
  im : (s.after n).cpu.im = s.cpu.im

namespace BlockPlan

variable {β : Type} {p : BlockPlan β} {k n : Nat} {op : BlockOp} {increment : Bool}
  {s t : Board β}

theorem reached_zero (hregs : p.regs 0 = s.cpu.regs) (hbus : p.bus 0 = s.bus) :
    p.Reached 0 s s where
  bus := hbus.symm
  regs := by rw [hregs]
  otherFlags := by rw [hregs]
  refresh := by omega
  halted := rfl
  iff1 := rfl
  iff2 := rfl
  im := rfl

variable [Bus β]

/-- A step handles byte `k` of `n` as a plan says. -/
def Handles (p : BlockPlan β) (op : BlockOp) (increment : Bool) (n k : Nat) (t : Board β) : Prop :=
  t.HandlesByte op increment (decide (k + 1 < n))
    ({ p.regs (k + 1) with pc := t.cpu.regs.pc, f := t.cpu.regs.f, r := t.cpu.regs.r }.setFlags
      (p.flags k)) (p.bus (k + 1))

/-- All bytes but the last one lead back to the opcodes. -/
theorem Handles.pc_step (ht : p.Handles op increment n k t) : t.step.board.cpu.regs.pc =
    if k + 1 < n then t.cpu.regs.pc else t.cpu.regs.pc + 2 := by
  rw [ht.regs]
  simp only [decide_eq_true_eq]

namespace Reached

variable (h : p.Reached k s t)

include h

/-- A run goes on where it finds its opcodes again. -/
theorem atBlock (hs : s.AtBlock op increment) (hpc : t.cpu.regs.pc = s.cpu.regs.pc)
    (hopcodes : ∀ a ∈ [s.cpu.regs.pc, s.cpu.regs.pc + 1], read (p.bus k) a = s.load a) :
    t.AtBlock op increment := by
  have hload (a : UInt16) (ha : a ∈ [s.cpu.regs.pc, s.cpu.regs.pc + 1]) : t.load a = s.load a := by
    rw [Board.load, h.bus, hopcodes a ha]
  refine ⟨h.halted.trans hs.running, ?_, ?_⟩
  · rw [Board.nextByte, hpc, hload _ (by simp)]
    exact hs.first
  · rw [hpc, hload _ (by simp)]
    exact hs.second

variable (ht : p.Handles op increment n k t)

include ht

/-- The flags that a byte leaves do not depend on those that the bytes before have left. -/
theorem f_step :
    t.step.board.cpu.regs.f = ((p.regs (k + 1)).setFlags (p.flags k)).f := by
  rw [ht.regs]
  refine Registers.setFlags_congr ?_
  rw [p.masks_flags]
  exact h.otherFlags.trans (by rw [p.f_regs k, p.f_regs (k + 1)])

/-- One byte of a plan. -/
theorem step : p.Reached (k + 1) s t.step.board where
  bus := ht.bus
  regs := by rw [ht.regs, Registers.setFlags_eq]
  otherFlags := by
    rw [h.f_step ht, ← p.masks_flags k]
    exact Registers.setFlags_and_not_masks _ _
  refresh := by
    have hrefresh := h.refresh
    rw [ht.regs]
    change t.cpu.regs.refresh.refresh.r.toNat = _
    rw [Registers.toNat_refresh, Registers.toNat_refresh]
    omega
  halted := ht.halted.trans h.halted
  iff1 := ht.iff1.trans h.iff1
  iff2 := ht.iff2.trans h.iff2
  im := ht.im.trans h.im

end Reached

section Run

variable (hs : s.AtBlock op increment) (hn : 0 < n)
  (hregs : p.regs 0 = s.cpu.regs) (hbus : p.bus 0 = s.bus)
  (hopcodes : ∀ k < n, ∀ a ∈ [s.cpu.regs.pc, s.cpu.regs.pc + 1], read (p.bus k) a = s.load a)
  (hbyte : ∀ k < n, ∀ t, t.AtBlock op increment → p.Reached k s t → p.Handles op increment n k t)

include hs hn hregs hbus hopcodes hbyte

/-- What a run has done after each of its steps. -/
theorem reached_after (hk : k ≤ n) :
    p.Reached k s (s.after k) ∧
      (s.after k).cpu.regs.pc = if k < n then s.cpu.regs.pc else s.cpu.regs.pc + 2 := by
  refine Board.after_induction (P := fun k t => p.Reached k s t ∧
    t.cpu.regs.pc = if k < n then s.cpu.regs.pc else s.cpu.regs.pc + 2)
    ⟨reached_zero hregs hbus, (if_pos hn).symm⟩ ?_ hk
  rintro k hk ⟨h, hpc⟩
  rw [if_pos hk] at hpc
  have ht := hbyte k hk _ (h.atBlock hs hpc (hopcodes k hk)) h
  exact ⟨h.step ht, by rw [ht.pc_step, hpc]⟩

theorem handles_after (hk : k < n) : p.Handles op increment n k (s.after k) := by
  obtain ⟨h, hpc⟩ := reached_after hs hn hregs hbus hopcodes hbyte (Nat.le_of_lt hk)
  rw [if_pos hk] at hpc
  exact hbyte k hk _ (h.atBlock hs hpc (hopcodes k hk)) h

/-- A run whose steps handle their bytes as planned, and which never overwrites the opcodes, follows
the plan to its end. -/
theorem runsBlock :
    s.RunsBlock op increment n ((p.regs n).setFlags (p.flags (n - 1))) (p.bus n) := by
  have hafter {k : Nat} (hk : k ≤ n) := reached_after hs hn hregs hbus hopcodes hbyte hk
  have hhandles {k : Nat} (hk : k < n) := handles_after hs hn hregs hbus hopcodes hbyte hk
  obtain ⟨hdone, hpc⟩ := hafter (Nat.le_refl n)
  have hf : (s.after n).cpu.regs.f = ((p.regs n).setFlags (p.flags (n - 1))).f := by
    obtain ⟨m, rfl⟩ := Nat.exists_eq_add_one_of_ne_zero (Nat.ne_of_gt hn)
    rw [Board.after_succ']
    exact (hafter (Nat.le_succ m)).1.f_step (hhandles (Nat.lt_succ_self m))
  exact {
    executed := fun k hk =>
      ⟨(hafter (Nat.le_of_lt hk)).2.trans (if_pos hk), (hhandles hk).executed⟩
    cycles := Board.cyclesOver_eq hn fun k hk => by
      rw [(hhandles hk).cycles]
      by_cases hlast : k + 1 = n
      · rw [if_pos hlast, if_neg (by simp [hlast])]
      · rw [if_neg hlast, if_pos (decide_eq_true (Nat.lt_of_le_of_ne hk hlast))]
    bus := hdone.bus
    regs := by
      rw [hdone.regs, hpc, hf, if_neg (Nat.lt_irrefl n), Registers.setFlags_eq]
    refresh := hdone.refresh
    halted := hdone.halted
    iff1 := hdone.iff1
    iff2 := hdone.iff2
    im := hdone.im }

end Run

end BlockPlan

namespace Board

variable {β : Type} [Bus β] {op : BlockOp} {increment again : Bool} {regs : Registers} {bus : β}
  {s : Board β}

/-- A step does to the processor and its surroundings what the instruction does to a byte. -/
theorem handlesByte (h : s.AtBlock op increment)
    (hbyte : s.pastEd.blockByte op increment = (again, {
      cpu := { s.pastEd.cpu with
        regs := { regs with pc := s.cpu.regs.pc + 2, r := s.cpu.regs.refresh.refresh.r } }
      bus := bus })) :
    s.HandlesByte op increment again regs bus := by
  constructor <;> rw [step_of_atBlock h, hbyte]
  case regs => cases again <;> rfl
  all_goals cases again <;> rw [pastEd_eq] <;> rfl

end Board

end EightBit.Z80
