import EightBit.Proofs.Sm83.Control

/-!
# Runs of an SM83 and what holds between calls

Whoever drives the processor lets it step, gives it the occasion to take an interrupt, resets it,
and changes its surroundings, in any order. What the surroundings return is arbitrary: they are any
bus, and between two calls they may be exchanged for any other state of theirs.

In every such run the flip-flops of the processor satisfy an invariant between calls. An `EI` in
flight never meets a halt or a stop, so that its effect cannot be held up; a halt and a stop exclude
each other; and the latch of the `HALT` bug only waits while the processor executes.

## Main definitions

* `Move`, `Board.run`: what a driver may do, and a sequence of it.
* `Control.Settled`, `Cpu.Settled`: the invariant.

## Main results

* `Control.Settled.step`, `Control.Settled.interrupt`: one move preserves the invariant.
* `Cpu.settled_run`: it holds in every run from power-on.
-/

namespace EightBit.Sm83

/-- What a driver does to a board in one call. -/
inductive Move (β : Type)
  /-- Executes an instruction, or lets an idle processor wait. -/
  | step
  /-- Gives the processor the occasion to take an interrupt. -/
  | interrupt
  | reset
  /-- Changes the surroundings, as devices do when time passes. -/
  | drive (f : β → β)

namespace Board

variable {β : Type}

/-- The board after power-on. -/
def powerOn (boot : BootState) (bus : β) : Board β where
  cpu := .create boot
  bus := bus

variable [Bus β]

/-- The board after one call. -/
def apply (s : Board β) : Move β → Board β
  | .step => s.step.board
  | .interrupt => s.handleInterrupts.2
  | .reset => { s with cpu := s.cpu.reset }
  | .drive f => { s with bus := f s.bus }

/-- The board after a sequence of calls. -/
def run (s : Board β) : List (Move β) → Board β
  | [] => s
  | m :: ms => (s.apply m).run ms

theorem run_append (s : Board β) (ms ns : List (Move β)) :
    s.run (ms ++ ns) = (s.run ms).run ns := by
  induction ms generalizing s with
  | nil => rfl
  | cons m ms ih => exact ih (s.apply m)

end Board

/-! ### The invariant -/

/-- What holds of the flip-flops between calls. -/
structure Control.Settled (k : Control) : Prop where
  /-- An `EI` executed in a step has moved on by its end. -/
  schedule : k.schedule = .idle ∨ k.schedule = .enabling
  /-- While an `EI` is in flight, interrupts are disabled and the processor executes. -/
  enabling : k.schedule = .enabling → k.ime = false ∧ k.halted = false ∧ k.stopped = false
  /-- A halt and a stop exclude each other. -/
  exclusive : ¬(k.halted = true ∧ k.stopped = true)
  /-- The `HALT` bug is latched only while the processor executes. -/
  latched : k.haltBug = true → k.halted = false ∧ k.stopped = false

/-- What holds of a processor between calls. -/
structure Cpu.Settled (cpu : Cpu) : Prop where
  control : cpu.control.Settled
  /-- No cycles are left over from the last step. -/
  extraCycles : cpu.extraCycles = 0

namespace Control.Settled

variable {k : Control}

/-- A stopped processor has no `EI` in flight. -/
theorem schedule_of_stopped (hk : k.Settled) (h : k.stopped = true) : k.schedule = .idle :=
  hk.schedule.resolve_right fun he => by simp [(hk.enabling he).2.2] at h

/-- With no `EI` in flight only the idle states and the latch matter. -/
theorem of_idle (hi : k.schedule = .idle) (hx : ¬(k.halted = true ∧ k.stopped = true))
    (hl : k.haltBug = true → k.halted = false ∧ k.stopped = false) : k.Settled where
  schedule := .inl hi
  enabling he := by simp [hi] at he
  exclusive := hx
  latched := hl

/-- The end of an instruction that leaves the processor executing, or no `EI` in flight. -/
theorem advance (hx : ¬(k.halted = true ∧ k.stopped = true))
    (hl : k.haltBug = true → k.halted = false ∧ k.stopped = false)
    (hr : k.schedule = .requested → k.ime = false ∧ k.halted = false ∧ k.stopped = false) :
    k.advance.Settled := by
  unfold Control.advance
  split
  next hi => exact of_idle hi hx hl
  next hi => exact ⟨.inr rfl, fun _ => hr hi, hx, hl⟩
  next => exact of_idle rfl hx hl

/-- An executed instruction, with the end of the step. -/
theorem execute_advance (hk : k.Settled) (hh : k.halted = false) (hs : k.stopped = false)
    (pending : Bool) (i : Instruction) : (k.release.execute pending i).advance.Settled := by
  have hr : k.release.schedule ≠ .requested := fun h => by
    rcases hk.schedule with hi | hi <;> cases hi.symm.trans h
  have hb : k.release.haltBug = false := rfl
  have hh : k.release.halted = false := hh
  have hs : k.release.stopped = false := hs
  generalize k.release = k at hr hb hh hs
  unfold execute
  -- One case for each instruction that acts on the flip-flops, and one for all others.
  split
  next => exact advance (by simp) (by simp [hb]) fun h => absurd h hr
  next =>
    split
    · exact advance (by simp [hh]) (by simp [hh, hs]) fun h => absurd h hr
    · exact advance (by simp [hs]) (by simp [hb]) fun h => absurd h hr
  next => exact advance (by simp [hh]) (by simp [hb]) (by simp)
  next =>
    split
    next hi =>
      have hime : k.ime = false := by simpa using (Bool.and_eq_true_iff.1 hi).1
      exact advance (by simp [hh]) (by simp [hb]) fun _ => ⟨hime, hh, hs⟩
    next => exact advance (by simp [hh]) (by simp [hb]) fun h => absurd h hr
  next => exact advance (by simp [hh]) (by simp [hb]) (by simp)
  next => exact advance (by simp [hh]) (by simp [hb]) fun h => absurd h hr

/-- A step preserves the invariant. -/
theorem step (hk : k.Settled) (joypad pending : Bool) (i : Instruction) :
    (k.step joypad pending i).Settled := by
  rcases Bool.eq_false_or_eq_true k.halted with hh | hh
  · rwa [step_of_halted hh]
  rcases Bool.eq_false_or_eq_true k.stopped with hs | hs
  · rw [step_of_stopped hh hs]
    exact of_idle (hk.schedule_of_stopped hs) (by simp [hh]) fun hl =>
      absurd hs (by simp [hk.latched hl])
  · rw [step_of_awake hh hs]
    exact hk.execute_advance hh hs pending i

/-- The interrupt logic preserves the invariant. -/
theorem interrupt (hk : k.Settled) (pending : Interrupts) : (k.interrupt pending).Settled := by
  unfold Control.interrupt
  split
  · split
    · exact of_idle rfl (by simp) fun _ => ⟨rfl, rfl⟩
    · exact ⟨hk.schedule, fun he => ⟨(hk.enabling he).1, rfl, rfl⟩, by simp, fun _ => ⟨rfl, rfl⟩⟩
  · exact hk

end Control.Settled

/-! ### Runs -/

namespace Cpu

variable {β : Type} [Bus β]

theorem settled_create (boot : BootState) : (create boot).Settled where
  control := .of_idle rfl (fun h => Bool.false_ne_true h.1) fun h => absurd h Bool.false_ne_true
  extraCycles := rfl

theorem Settled.step {s : Board β} (h : s.cpu.Settled) : s.step.board.cpu.Settled where
  control := by
    rw [Board.control_step]
    exact h.control.step _ _ _
  extraCycles := s.extraCycles_step

theorem Settled.handleInterrupts {s : Board β} (h : s.cpu.Settled) :
    s.handleInterrupts.2.cpu.Settled where
  control := by
    rw [Board.control_handleInterrupts]
    exact h.control.interrupt _
  extraCycles := s.extraCycles_handleInterrupts.trans h.extraCycles

theorem Settled.apply {s : Board β} (h : s.cpu.Settled) (m : Move β) : (s.apply m).cpu.Settled := by
  cases m with
  | step => exact h.step
  | interrupt => exact h.handleInterrupts
  | reset =>
    rw [Board.apply, reset_eq_create]
    exact ⟨(settled_create s.cpu.boot).control, rfl⟩
  | drive f => exact h

theorem Settled.run {s : Board β} (h : s.cpu.Settled) (ms : List (Move β)) :
    (s.run ms).cpu.Settled := by
  induction ms generalizing s with
  | nil => exact h
  | cons m ms ih => exact ih (h.apply m)

/-- In every run from power-on, over any surroundings, the processor is settled between calls. -/
theorem settled_run (boot : BootState) (bus : β) (ms : List (Move β)) :
    ((Board.powerOn boot bus).run ms).cpu.Settled :=
  (settled_create boot).run ms

end Cpu

end EightBit.Sm83
