import EightBit.Proofs.Bits
import EightBit.Proofs.GameBoy.Machine
import Mathlib.Data.List.Basic
import Mathlib.Logic.Function.Iterate

/-!
# Calls as single steps

Whatever a driver asks of the machine, steps or frames, it makes one step after the other, and what
it is told of a frame is what those steps take together. Between two frames the machine remembers
by how much the last one ran over. No step looks at that, so that a machine which has run frames is,
but for this number, the machine after as many single steps. Every step takes time, and a frame is
over only when its time is.

## Main definitions

* `Machine.after`: the machine after a number of steps.
* `Machine.withOvershoot`: the machine with another number for the next frame.

## Main results

* `Machine.four_le_step`: every step takes time.
* `Machine.le_stepFrame`: a frame lasts its time.
* `Machine.exists_run_eq`: the machine after calls is the one after their steps.
* `Machine.map_starts`: what the steps in calls report is what single steps report.
-/

namespace EightBit

/-! ### The time of a step -/

namespace Sm83

theorem Decode.four_le_primary : ∀ op, 4 ≤ (primary op).cycles :=
  forall_byte (by decide)

namespace Board

variable {β : Type} [Bus β] (s : Board β)

theorem four_le_decoded : 4 ≤ s.decoded.1.cycles := by
  have hfirst := Decode.four_le_primary s.nextByte
  rw [decoded]
  split
  · exact Nat.le_trans hfirst (Nat.le_add_right _ _)
  · exact hfirst

/-- Every step of the processor takes a machine cycle or more, also an idle one. -/
theorem four_le_cycles_step : 4 ≤ s.step.cycles := by
  rw [step]
  split
  · exact Nat.le_refl 4
  split
  · exact Nat.le_refl 4
  · exact Nat.le_trans (four_le_decoded _) (Nat.le_add_right _ _)

end Board

end Sm83

namespace GameBoy.Machine

variable (m : Machine)

/-- Every step takes a machine cycle or more. -/
theorem four_le_step : 4 ≤ m.step.1 := by
  rw [step_fst]
  exact Nat.le_trans m.board.four_le_cycles_step (Nat.le_add_right _ _)

/-- Steps for a budget use it up. -/
theorem le_runFor {budget fuel ran : Nat} (h : budget ≤ ran + fuel) :
    budget ≤ (runFor budget fuel ran m).1 := by
  induction fuel generalizing ran m with
  | zero => exact h
  | succ fuel ih =>
    rw [runFor]
    split
    next =>
      have hstep := m.four_le_step
      have hrest : budget ≤ (runFor budget fuel (ran + m.step.1) m.step.2).1 := ih _ (by omega)
      exact hrest
    next hdone => exact Nat.le_of_not_lt hdone

/-- A frame lasts its time, less what the last one ran over. -/
theorem le_stepFrame : dotsPerFrame - m.overshoot ≤ m.stepFrame.1 :=
  m.le_runFor (Nat.le_add_left _ _)

/-! ### Single steps -/

/-- The machine after `n` steps. -/
def after (n : Nat) : Machine :=
  (fun m => m.step.2)^[n] m

/-- The machine that believes that the last frame ran over by `n` cycles. -/
def withOvershoot (n : Nat) : Machine := { m with overshoot := n }

theorem after_succ (n : Nat) : m.after (n + 1) = m.step.2.after n :=
  Function.iterate_succ_apply _ n m

theorem after_add (k n : Nat) : m.after (k + n) = (m.after k).after n := by
  rw [after, Nat.add_comm, Function.iterate_add_apply]
  rfl

/-- No step looks at the bookkeeping between frames. -/
theorem step_withOvershoot (n : Nat) :
    (m.withOvershoot n).step = (m.step.1, m.step.2.withOvershoot n) := by
  obtain ⟨config, board, trace, overshoot, totalCycles⟩ := m
  unfold step withOvershoot
  dsimp only
  split <;> rfl

theorem after_withOvershoot (n k : Nat) :
    (m.withOvershoot n).after k = (m.after k).withOvershoot n := by
  induction k generalizing m with
  | zero => rfl
  | succ k ih => rw [after_succ, step_withOvershoot, ih, after_succ]

/-! ### Steps for a budget -/

section RunFor

variable (budget fuel ran : Nat)

theorem runFor_snd :
    (runFor budget fuel ran m).2 = m.after (startsFor budget fuel ran m).length := by
  induction fuel generalizing ran m with
  | zero => rfl
  | succ fuel ih =>
    rw [runFor, startsFor]
    split
    · rw [List.length_cons, after_succ]
      exact ih _ _
    · rfl

theorem map_startsFor :
    (startsFor budget fuel ran m).map (fun k => k.step.1) =
      (List.range (startsFor budget fuel ran m).length).map fun k => (m.after k).step.1 := by
  induction fuel generalizing ran m with
  | zero => rfl
  | succ fuel ih =>
    rw [startsFor]
    split
    · rw [List.length_cons, List.range_succ_eq_map, List.map_cons, List.map_cons, ih, List.map_map]
      rfl
    · rfl

end RunFor

/-! ### Calls -/

/-- A call is as many single steps, but for the bookkeeping between frames. -/
theorem exists_call_eq (c : Call) :
    ∃ n, (m.call c).2 = (m.after (c.starts m).length).withOvershoot n := by
  cases c with
  | step => exact ⟨m.step.2.overshoot, rfl⟩
  | frame =>
    refine ⟨m.stepFrame.2.overshoot, ?_⟩
    rw [Call.starts, ← runFor_snd]
    rfl

theorem map_call_starts (c : Call) :
    (c.starts m).map (fun k => k.step.1) =
      (List.range (c.starts m).length).map fun k => (m.after k).step.1 := by
  cases c with
  | step => rfl
  | frame => exact m.map_startsFor _ _ 0

/-- The machine after calls is the one after their steps, but for the bookkeeping between
frames. -/
theorem exists_run_eq (cs : List Call) :
    ∃ n, (m.run cs).2 = (m.after (m.starts cs).length).withOvershoot n := by
  induction cs generalizing m with
  | nil => exact ⟨m.overshoot, rfl⟩
  | cons c cs ih =>
    obtain ⟨k, hcall⟩ := m.exists_call_eq c
    obtain ⟨n, hrest⟩ := ih (m.call c).2
    refine ⟨n, hrest.trans ?_⟩
    rw [starts, List.length_append, after_add, hcall, after_withOvershoot]
    rfl

/-- What the steps in calls report is what single steps report, one after the other. -/
theorem map_starts (cs : List Call) :
    (m.starts cs).map (fun k => k.step.1) =
      (List.range (m.starts cs).length).map fun k => (m.after k).step.1 := by
  induction cs generalizing m with
  | nil => rfl
  | cons c cs ih =>
    obtain ⟨n, hcall⟩ := m.exists_call_eq c
    have hrest (k : Nat) :
        ((m.call c).2.after k).step.1 = (m.after ((c.starts m).length + k)).step.1 := by
      rw [hcall, after_withOvershoot, step_withOvershoot, after_add]
    rw [starts, List.map_append, map_call_starts, ih, List.length_append, List.range_add,
      List.map_append, List.map_map]
    exact congrArg _ (List.map_congr_left fun k _ => hrest k)

end GameBoy.Machine

end EightBit
