import EightBit.Proofs.Checked.GameBoy

/-!
# Frames keep pace

A frame runs steps until its time is over, and the next is shorter by what it ran over. The time of
a step is a whole number of machine cycles, at least one and at most eleven, whatever the program
does; a processor that is halted or stopped for good takes one in every step. Every frame therefore
ends, no frame runs over by more than ten machine cycles, and any number of frames takes exactly its
time and what the last one ran over.

## Main definitions

* `Machine.RunsUntil`: steps until a number of T-cycles have run.
* `Machine.frames`: several frames.
* `Machine.PacesFrames`, `Machine.PacesFromStart`: the time of frames.

## Main results

* `Machine.four_dvd_step`: a step takes whole machine cycles.
* `Machine.RunsUntil.lt_add`: by how much a frame may run over.
* `Machine.framesKeepPace_operate`: the frames of a machine in every state, and those after power-on
  and after a reset.
-/

namespace EightBit

namespace Sm83

/-! ### Whole machine cycles -/

theorem Decode.four_dvd_primary : ∀ op, 4 ∣ (primary op).cycles :=
  forall_byte (by decide)

theorem Decode.four_dvd_cb : ∀ op, 4 ∣ (cb op).cycles :=
  forall_byte (by decide)

theorem Instruction.four_dvd_branchCost (i : Instruction) : 4 ∣ i.branchCost := by
  cases i with
  | jrIf | jpIf => exact Nat.dvd_refl 4
  | callIf | retIf => exact ⟨3, rfl⟩
  | _ => exact Nat.dvd_zero 4

namespace Board

variable {β : Type} (s : Board β)

theorem four_dvd_surcharge (i : Instruction) : 4 ∣ s.surcharge i := by
  cases i with
  | jrIf | jpIf | callIf | retIf =>
    rw [surcharge]
    split
    · exact Instruction.four_dvd_branchCost _
    · exact Nat.dvd_zero 4
  | _ => exact Nat.dvd_zero 4

variable [Bus β]

theorem four_dvd_decoded : 4 ∣ s.decoded.1.cycles := by
  rw [decoded]
  split
  · exact Nat.dvd_add (Decode.four_dvd_primary _) (Decode.four_dvd_cb _)
  · exact Decode.four_dvd_primary _

/-- A step of the processor takes whole machine cycles. -/
theorem four_dvd_cycles_step : 4 ∣ s.step.cycles := by
  have hidle : 4 ∣ idleCycles := Nat.dvd_refl 4
  rcases Bool.eq_false_or_eq_true s.cpu.halted with h | h
  · rwa [step_of_halted h]
  rcases Bool.eq_false_or_eq_true s.cpu.stopped with h' | h'
  · rwa [step_of_stopped h h']
  · rw [cycles_step_of_awake s h h']
    exact Nat.dvd_add (four_dvd_decoded _) (four_dvd_surcharge _ _)

end Board

end Sm83

namespace GameBoy.Machine

open Sm83 (Board)

theorem four_dvd_entryCycles (m : Machine) : 4 ∣ m.entryCycles := by
  have hdispatch : 4 ∣ Sm83.dispatchCycles := by decide
  rw [entryCycles, Board.handleInterrupts_fst]
  split
  · exact hdispatch
  · exact Nat.dvd_zero 4

/-- A step takes whole machine cycles. -/
theorem four_dvd_step (m : Machine) : 4 ∣ m.step.1 := by
  rw [step_fst]
  exact Nat.dvd_add m.board.four_dvd_cycles_step m.four_dvd_entryCycles

/-! ### Steps for a time -/

/-- Steps from a machine on, before which `ran` T-cycles have run, come to an end: after the last of
them, `budget` T-cycles or more have run. The result is these T-cycles and the last machine. -/
inductive RunsUntil (budget : Nat) : (ran : Nat) → Machine → Nat × Machine → Prop
  | done {ran : Nat} {m : Machine} (h : budget ≤ ran) : RunsUntil budget ran m (ran, m)
  | step {ran : Nat} {m : Machine} {r : Nat × Machine} (h : ran < budget)
      (hrest : RunsUntil budget (ran + m.step.1) m.step.2 r) : RunsUntil budget ran m r

variable {budget ran : Nat} {m : Machine}

/-- Steps for a time come to an end, as every one of them takes time. -/
theorem runsUntil_runFor {fuel : Nat} (h : budget ≤ ran + fuel) :
    RunsUntil budget ran m (runFor budget fuel ran m) := by
  induction fuel generalizing ran m with
  | zero => exact .done h
  | succ fuel ih =>
    rw [runFor]
    split
    next hlt =>
      have hstep := m.four_le_step
      exact .step hlt (ih (by omega))
    next hdone => exact .done (Nat.le_of_not_lt hdone)

namespace RunsUntil

variable {r : Nat × Machine} (h : RunsUntil budget ran m r)

include h

theorem le : budget ≤ r.1 := by
  induction h with
  | done h => exact h
  | step _ _ ih => exact ih

/-- The time that has run stays a whole number of machine cycles. -/
theorem four_dvd (hran : 4 ∣ ran) : 4 ∣ r.1 := by
  induction h with
  | done _ => exact hran
  | step _ _ ih => exact ih (Nat.dvd_add hran (four_dvd_step _))

/-- No step starts when the time is over, so that the time runs over by less than one step. -/
theorem lt_add (hran : ran < budget + 44) : r.1 < budget + 44 := by
  induction h with
  | done _ => exact hran
  | @step ran m _ hlt _ ih =>
    have hstep : m.step.1 ≤ 44 := m.step_fst_le
    exact ih (by omega)

end RunsUntil

/-! ### Frames -/

theorem runsUntil_stepFrame (m : Machine) :
    ∃ last, RunsUntil (dotsPerFrame - m.overshoot) 0 m (m.stepFrame.1, last) ∧
      m.stepFrame.2 = last.withOvershoot (m.stepFrame.1 - (dotsPerFrame - m.overshoot)) :=
  ⟨_, runsUntil_runFor (Nat.le_add_left _ _), rfl⟩

/-- The cycles that several frames report together, and the machine after them. -/
def frames (m : Machine) (n : Nat) : Nat × Machine :=
  m.run (List.replicate n .frame)

@[simp] theorem frames_zero (m : Machine) : m.frames 0 = (0, m) := rfl

theorem frames_succ (m : Machine) (n : Nat) :
    m.frames (n + 1) = (m.stepFrame.1 + (m.stepFrame.2.frames n).1, (m.stepFrame.2.frames n).2) :=
  rfl

/-- The last frame ran over by whole machine cycles, and by ten at most. -/
structure Paced (m : Machine) : Prop where
  four_dvd : 4 ∣ m.overshoot
  le : m.overshoot ≤ 40

theorem paced_of_overshoot_eq_zero (h : m.overshoot = 0) : m.Paced := by
  constructor <;> rw [h]
  · exact Nat.dvd_zero 4
  · exact Nat.zero_le 40

namespace Paced

variable (h : m.Paced)

include h

/-- A frame makes up for what the last one ran over. -/
theorem stepFrame_fst : m.stepFrame.1 + m.overshoot = 70224 + m.stepFrame.2.overshoot := by
  obtain ⟨last, hruns, hafter⟩ := m.runsUntil_stepFrame
  have hle : 70224 - m.overshoot ≤ m.stepFrame.1 := hruns.le
  have hmax := h.le
  rw [hafter]
  change m.stepFrame.1 + m.overshoot = 70224 + (m.stepFrame.1 - (70224 - m.overshoot))
  omega

theorem stepFrame : m.stepFrame.2.Paced := by
  obtain ⟨last, hruns, hafter⟩ := m.runsUntil_stepFrame
  have hdvd : 4 ∣ m.stepFrame.1 := hruns.four_dvd (Nat.dvd_zero 4)
  have hlt : m.stepFrame.1 < 70224 - m.overshoot + 44 := hruns.lt_add (by omega)
  have hsum := h.stepFrame_fst
  have hfour := h.four_dvd
  have hmax := h.le
  exact ⟨by omega, by omega⟩

theorem frames (n : Nat) : (m.frames n).2.Paced := by
  induction n generalizing m with
  | zero => exact h
  | succ n ih => exact ih h.stepFrame

/-- What each frame runs over, the next makes up for; only what the last one ran over is left. -/
theorem frames_fst (n : Nat) :
    (m.frames n).1 + m.overshoot = 70224 * n + (m.frames n).2.overshoot := by
  induction n generalizing m with
  | zero => rw [frames_zero, Nat.mul_zero]
  | succ n ih =>
    have hfirst := h.stepFrame_fst
    have hrest := ih h.stepFrame
    rw [frames_succ, Nat.mul_succ]
    dsimp only
    omega

end Paced

/-! ### Machines that frames are run on -/

theorem overshoot_insert (m : Machine) (image : List UInt8) :
    (m.insert image).overshoot = m.overshoot := by
  rw [insert_eq]
  rfl

/-- Only frames and a reset change what is remembered of the last frame. -/
theorem Paced.perform [NoiseSource] (h : m.Paced) (op : Operation) : (m.perform op).2.Paced := by
  have hkeep {k : Machine} (hk : k.overshoot = m.overshoot) : k.Paced := by
    constructor <;> rw [hk]
    · exact h.four_dvd
    · exact h.le
  cases op with
  | call c =>
    cases c with
    | step =>
      refine hkeep ?_
      change m.step.2.overshoot = m.overshoot
      rw [step_eq]
    | frame => exact h.stepFrame
  | insert image => exact hkeep (m.overshoot_insert image)
  | bus c =>
    cases c with
    | read a => exact h
    | _ => exact hkeep rfl
  | reset => exact paced_of_overshoot_eq_zero rfl
  | _ => exact hkeep rfl

/-- The frames of a machine, one and several. -/
structure PacesFrames (m : Machine) : Prop where
  /-- A frame ends: its steps come to an end when its time is over. -/
  ends : ∃ last, RunsUntil (70224 - m.overshoot) 0 m (m.stepFrame.1, last) ∧
    m.stepFrame.2 = last.withOvershoot (m.stepFrame.1 - (70224 - m.overshoot))
  le_stepFrame : 70184 ≤ m.stepFrame.1
  stepFrame_le : m.stepFrame.1 ≤ 70264
  total (n : Nat) : (m.frames n).1 + m.overshoot = 70224 * n + (m.frames n).2.overshoot
  overshoot_le (n : Nat) : (m.frames n).2.overshoot ≤ 40

theorem Paced.pacesFrames (h : m.Paced) : m.PacesFrames where
  ends := m.runsUntil_stepFrame
  le_stepFrame := by
    have hsum := h.stepFrame_fst
    have hmax := h.le
    omega
  stepFrame_le := by
    have hsum := h.stepFrame_fst
    have hmax := h.stepFrame.le
    omega
  total := h.frames_fst
  overshoot_le n := (h.frames n).le

/-- The frames of a machine of which no frame has run over yet. -/
structure PacesFromStart (m : Machine) : Prop extends m.PacesFrames where
  total_eq (n : Nat) : (m.frames n).1 = 70224 * n + (m.frames n).2.overshoot

theorem pacesFromStart (h : m.overshoot = 0) : m.PacesFromStart where
  toPacesFrames := (paced_of_overshoot_eq_zero h).pacesFrames
  total_eq n := by
    have htotal := (paced_of_overshoot_eq_zero h).frames_fst n
    rwa [h] at htotal

/-- Whatever has been done to a machine, with whatever cartridge, its frames end and keep pace, and
those after power-on and after a reset do so from the start. -/
theorem framesKeepPace_operate [NoiseSource] (config : Config) (journal : Journal)
    (image : List UInt8) (ops : List Operation) :
    ((create config journal).operate ops).2.PacesFrames ∧
      ((create config journal).operate ops).2.reset.PacesFromStart ∧
      (powerOn config journal image).PacesFromStart := by
  have hcreate : (create config journal).Paced := paced_of_overshoot_eq_zero rfl
  refine ⟨?_, pacesFromStart rfl, pacesFromStart ?_⟩
  · exact (operate_induction hcreate (fun _ op h => h.perform op) ops).pacesFrames
  · exact (create config journal).overshoot_insert image

end GameBoy.Machine

end EightBit
