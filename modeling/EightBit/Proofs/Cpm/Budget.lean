import EightBit.Proofs.Cpm.SystemCalls
import EightBit.Proofs.Z80.Costs

/-!
# Runs within a budget

A run goes on until the program is finished or the budget is used up. Whatever the program does, a
step that does not finish it takes time, so one or the other happens: a processor that is halted
goes on counting cycles. A run overshoots its budget by less than its last step takes, which is the
reason why the count of cycles stays within 64 bits if the budget leaves room for one step.

## Main definitions

* `Machine.GoesOn`, `Machine.Loops`: the condition of the loop, and how often the loop is taken.
* `Machine.AtRest`: a machine that does nothing until a program is loaded.
* `Machine.RespectsBudget`, `Machine.KeepsTime`: what is to be shown of a run and of a step.

## Main results

* `Machine.exists_loops_runFor`: a run comes to its end.
* `Machine.Loops.finished_iff`: when the end is that of the program.
* `Machine.respectsBudget`: every run, and every step.
-/

namespace EightBit.Cpm.Machine

variable {m : Machine} {budget : Nat}

/-! ### A step and the clock -/

/-- A step that makes the processor execute takes between 4 and 25 cycles. -/
theorem cycles_step_of_active (h : m.Active) : 4 ≤ m.step.1 ∧ m.step.1 ≤ 25 := by
  rw [step_of_active h]
  exact ⟨m.called.le_cycles_step, m.called.cycles_step_le⟩

/-- A step does so unless the program is finished before or after it. -/
theorem active_of_not_finished (h : m.step.2.finished = false) : m.Active :=
  Decidable.not_not.1 fun hidle =>
    Bool.false_ne_true (h.symm.trans (step_of_not_active hidle).2.1)

/-- A program that a step finishes was at the warm boot entry. -/
theorem pc_of_finishes (h : m.finished = false) (hstep : m.step.2.finished = true) :
    m.board.cpu.regs.pc = 0 :=
  Decidable.not_not.1 fun hpc =>
    Bool.false_ne_true ((finished_step_of_active ⟨h, hpc⟩).symm.trans hstep)

/-- A step at the warm boot entry finishes the program. -/
theorem finishes_of_pc (hpc : m.board.cpu.regs.pc = 0) : m.step.2.finished = true :=
  (step_of_not_active fun hactive => hactive.2 hpc).2.1

theorem step_of_finished (h : m.finished = true) : m.step = (0, m) :=
  if_pos h

theorem after_of_finished (h : m.finished = true) (n : Nat) : m.after n = m := by
  induction n with
  | zero => rfl
  | succ n ih => rw [after_succ', ih, step_of_finished h]

/-! ### The loop -/

/-- The loop of a run is taken once more. -/
def GoesOn (m : Machine) (budget : Nat) : Prop :=
  m.finished = false ∧ m.totalCycles < budget

/-- The loop of a run is taken `n` times. -/
structure Loops (m : Machine) (budget n : Nat) : Prop where
  goesOn : ∀ k < n, (m.after k).GoesOn budget
  ends : ¬(m.after n).GoesOn budget

/-- The loop is not taken. -/
theorem loops_zero (h : ¬m.GoesOn budget) : m.Loops budget 0 :=
  ⟨fun _ hk => absurd hk (Nat.not_lt_zero _), h⟩

/-- The loop is taken once, and then as often as it is taken from there. -/
theorem Loops.succ {n : Nat} (hm : m.GoesOn budget) (h : m.step.2.Loops budget n) :
    m.Loops budget (n + 1) where
  goesOn k hk := by
    cases k with
    | zero => exact hm
    | succ k =>
      rw [after_succ]
      exact h.goesOn k (Nat.lt_of_succ_lt_succ hk)
  ends := by
    rw [after_succ]
    exact h.ends

/-- A run comes to its end: its fuel is not the reason why it stops. -/
theorem exists_loops_runFor (fuel : Nat)
    (h : m.finished = true ∨ budget + 1 ≤ m.totalCycles + fuel) :
    ∃ n, m.Loops budget n ∧ runFor budget fuel m = m.after n := by
  induction fuel generalizing m with
  | zero =>
    refine ⟨0, loops_zero fun hm => ?_, rfl⟩
    rcases h with hfinished | htotal
    · exact Bool.false_ne_true (hm.1.symm.trans hfinished)
    · exact absurd hm.2 (by omega)
  | succ fuel ih =>
    by_cases hm : m.GoesOn budget
    · -- A step that does not finish the program uses up more than one unit of fuel.
      have hstep : m.step.2.finished = true ∨ budget + 1 ≤ m.step.2.totalCycles + fuel := by
        rcases Bool.eq_false_or_eq_true m.step.2.finished with hfinished | hgoes
        · exact .inl hfinished
        · have hcycles := (cycles_step_of_active (active_of_not_finished hgoes)).1
          have htotal := h.resolve_left (Bool.eq_false_iff.1 hm.1)
          rw [totalCycles_step]
          exact .inr (by omega)
      obtain ⟨n, hloops, hrun⟩ := ih hstep
      refine ⟨n + 1, .succ hm hloops, ?_⟩
      rw [runFor, if_pos (by simpa [GoesOn] using hm), hrun, after_succ]
    · exact ⟨0, loops_zero hm, if_neg (by simpa [GoesOn] using hm)⟩

namespace Loops

variable {n : Nat} (h : m.Loops budget n)
include h

/-- The loop ends with the program exactly if the program comes to the warm boot entry, or was
finished before. -/
theorem finished_iff :
    (m.after n).finished = true ↔
      m.finished = true ∨ ∃ k < n, (m.after k).board.cpu.regs.pc = 0 := by
  constructor
  · intro hfinished
    cases n with
    | zero => exact .inl hfinished
    | succ n =>
      rw [after_succ'] at hfinished
      have hlast := h.goesOn n (Nat.lt_succ_self n)
      exact .inr ⟨n, Nat.lt_succ_self n, pc_of_finishes hlast.1 hfinished⟩
  · rintro (hfinished | ⟨k, hk, hpc⟩)
    · rwa [after_of_finished hfinished]
    · have hnext : (m.after (k + 1)).finished = true := by
        rw [after_succ']
        exact finishes_of_pc hpc
      -- The loop is not taken again.
      rcases Nat.lt_or_eq_of_le hk with hlt | rfl
      · exact absurd (h.goesOn _ hlt).1 (by rw [hnext]; decide)
      · exact hnext

/-- The budget is overshot by less than a step. -/
theorem totalCycles_lt {k : Nat} (hk : k < n) : (m.after (k + 1)).totalCycles < budget + 25 := by
  have hbefore := (h.goesOn k hk).2
  have hcycles : (m.after k).step.1 ≤ 25 := by
    by_cases hactive : (m.after k).Active
    · exact (cycles_step_of_active hactive).2
    · rw [(step_of_not_active hactive).1]
      decide
  rw [after_succ', totalCycles_step]
  omega

end Loops

/-! ### Runs -/

/-- The machine does nothing until a program is loaded. -/
structure AtRest (m : Machine) : Prop where
  step : ∀ n, (m.after n).step = (0, m)
  loadCom : ∀ image loaded, m.loadCom image = .ok loaded → loaded.finished = false

theorem atRest_of_finished (h : m.finished = true) : m.AtRest where
  step n := by rw [after_of_finished h, step_of_finished h]
  loadCom image loaded hload := by
    unfold Machine.loadCom at hload
    split at hload
    · cases hload
      rfl
    · cases hload

/-- A run with the given budget ends, with the program or with the budget. -/
structure RespectsBudget (m : Machine) (budget : Nat) : Prop where
  /-- The loop is taken a number of times. The program is finished at the end exactly if one of
  these steps begins at the warm boot entry, or it was finished before. -/
  returns : ∃ n, m.Loops budget n ∧ m.run budget = ((m.after n).finished, m.after n) ∧
    ((m.run budget).1 = true ↔
      m.finished = true ∨ ∃ k < n, (m.after k).board.cpu.regs.pc = 0)
  finished : (m.run budget).1 = true → (m.run budget).2.AtRest
  /-- Otherwise the budget is used up, and not overshot by much. -/
  usedUp : (m.run budget).1 = false → budget ≤ (m.run budget).2.totalCycles
  overshoot : (m.run budget).1 = false → m.totalCycles < budget →
    (m.run budget).2.totalCycles ≤ budget + 24
  /-- The cycles counted before and after each step of the run fit 64 bits. -/
  fits : budget ≤ 2 ^ 64 - 26 → m.totalCycles < 2 ^ 64 → ∀ n, m.Loops budget n →
    ∀ k ≤ n, (m.after k).totalCycles < 2 ^ 64

/-- A step that neither finishes the program nor finds it finished takes between 4 and 25 cycles,
and they are counted. -/
def KeepsTime (m : Machine) : Prop :=
  m.finished = false → m.step.2.finished = false →
    m.totalCycles + 4 ≤ m.step.2.totalCycles ∧ m.step.2.totalCycles ≤ m.totalCycles + 25

theorem keepsTime (m : Machine) : m.KeepsTime := by
  intro _ hstep
  obtain ⟨hleast, hmost⟩ := cycles_step_of_active (active_of_not_finished hstep)
  rw [totalCycles_step]
  exact ⟨Nat.add_le_add_left hleast _, Nat.add_le_add_left hmost _⟩

/-- **Runs end.** Whatever the program, a run ends. It ends with the program exactly if a step of it
begins at the warm boot entry or the program was finished before, and then the machine is at rest
until another program is loaded; otherwise it ends with the budget, which it overshoots by 24 cycles
at most. Every step that does not finish the program takes between 4 and 25 cycles. -/
theorem respectsBudget (m : Machine) (budget : Nat) : m.RespectsBudget budget ∧ m.KeepsTime := by
  have hfuel : budget + 1 ≤ m.totalCycles + (budget + 1 - m.totalCycles) := by omega
  obtain ⟨n, hloops, hrunFor⟩ := exists_loops_runFor _ (.inr hfuel)
  have hrun : m.run budget = ((m.after n).finished, m.after n) := by
    rw [run, hrunFor]
  refine ⟨⟨⟨n, hloops, hrun, ?_⟩, ?_, ?_, ?_, ?_⟩, m.keepsTime⟩
  · rw [hrun]
    exact hloops.finished_iff
  · rw [hrun]
    exact atRest_of_finished
  · rw [hrun]
    exact fun hgoes => Nat.le_of_not_lt fun hlt => hloops.ends ⟨hgoes, hlt⟩
  · rw [hrun]
    intro hgoes hbudget
    cases n with
    | zero => exact absurd ⟨hgoes, hbudget⟩ hloops.ends
    | succ n => exact Nat.le_of_lt_succ (hloops.totalCycles_lt (Nat.lt_succ_self n))
  · intro hroom hm n hloops k hk
    cases k with
    | zero => exact hm
    | succ k =>
      have hlt := hloops.totalCycles_lt hk
      omega

end EightBit.Cpm.Machine
