import EightBit.Proofs.Sm83.Fetch
import EightBit.Proofs.Sm83.Surroundings

/-!
# What a processor does to its surroundings

All that a step or an interrupt does to the surroundings is a sequence of writes and notices. The
sequence is found by letting the processor run in surroundings that do nothing but remember what is
done to them, and answer as the real ones would after all of it.

What every access in the sequence preserves is preserved by the step. The accesses themselves are
at hand there, so that it may be asked which addresses a step writes.

## Main definitions

* `Access`, `Access.apply`: a write or a notice, and its effect.
* `Trail`, `Trail.bus`: surroundings that remember, and what they stand for.
* `Board.stepAccesses`, `Board.interruptAccesses`: what a step and the interrupt logic do.
* `Board.Rests`: the processor is halted, or about to be, and no interrupt is pending.

## Main results

* `Board.bus_step`, `Board.bus_handleInterrupts`: the surroundings afterwards.
* `Board.bus_step_induction`, `Board.bus_handleInterrupts_induction`: what holds of them.
* `Board.Rests.stepAccesses_eq_nil`: a processor at rest does nothing to them.
-/

namespace EightBit.Sm83

variable {β : Type}

/-- What a processor does to its surroundings. -/
inductive Access
  | write (address : UInt16) (value : UInt8)
  | note (notice : Notice)

/-- The surroundings after an access. -/
def Access.apply [Addressable β] : Access → β → β
  | write a v, bus => EightBit.write bus a v
  | note n, bus => EightBit.note n bus

/-- Surroundings that began as `start` and remember what was done to them. -/
structure Trail {β : Type} (start : β) where
  /-- The accesses so far, the latest first. -/
  accesses : List Access

variable [Bus β]

/-- The surroundings that a trail stands for. -/
def Trail.bus {start : β} (t : Trail start) : β :=
  t.accesses.foldr Access.apply start

instance (start : β) : Addressable (Trail start) where
  read t a := read t.bus a
  write t a v := ⟨.write a v :: t.accesses⟩
  note n t := ⟨.note n :: t.accesses⟩

instance (start : β) : Bus (Trail start) where
  pendingInterrupts t := pendingInterrupts t.bus

/-- A processor cannot tell a trail from what it stands for. -/
theorem Trail.hom_bus (start : β) : Bus.Hom (bus : Trail start → β) where
  read _ _ := rfl
  write _ _ _ := rfl
  note _ _ := rfl
  pendingInterrupts _ := rfl

namespace Board

/-- The same board, in surroundings that remember from now on. -/
def trailed (s : Board β) : Board (Trail s.bus) where
  cpu := s.cpu
  bus := ⟨[]⟩

/-- What a step does to the surroundings, the latest access first. -/
def stepAccesses (s : Board β) : List Access :=
  s.trailed.step.board.bus.accesses

/-- What the interrupt logic does to the surroundings, the latest access first. -/
def interruptAccesses (s : Board β) : List Access :=
  s.trailed.handleInterrupts.2.bus.accesses

variable (s : Board β)

theorem map_trailed : s.trailed.map Trail.bus = s := rfl

/-- The surroundings after a step. -/
theorem bus_step : s.step.board.bus = s.stepAccesses.foldr Access.apply s.bus := by
  have h := (Trail.hom_bus s.bus).step s.trailed
  rw [map_trailed] at h
  rw [h]
  rfl

/-- The surroundings after an interrupt, or after the processor has been given the occasion to take
one. -/
theorem bus_handleInterrupts :
    s.handleInterrupts.2.bus = s.interruptAccesses.foldr Access.apply s.bus := by
  have h := (Trail.hom_bus s.bus).handleInterrupts s.trailed
  rw [map_trailed] at h
  rw [h]
  rfl

variable {s} {P : β → Prop}

/-- What holds of the surroundings, and is preserved by all that a step does to them, holds after
the step. -/
theorem bus_step_induction (hs : P s.bus)
    (hx : ∀ x ∈ s.stepAccesses, ∀ bus, P bus → P (x.apply bus)) : P s.step.board.bus := by
  rw [bus_step]
  exact List.foldrRecOn _ _ hs fun bus hbus x hmem => hx x hmem bus hbus

theorem bus_handleInterrupts_induction (hs : P s.bus)
    (hx : ∀ x ∈ s.interruptAccesses, ∀ bus, P bus → P (x.apply bus)) :
    P s.handleInterrupts.2.bus := by
  rw [bus_handleInterrupts]
  exact List.foldrRecOn _ _ hs fun bus hbus x hmem => hx x hmem bus hbus

/-! ### A processor at rest -/

/-- The processor is halted or has a `HALT` before it, and no interrupt is pending. -/
structure Rests (s : Board β) : Prop where
  stopped : s.cpu.stopped = false
  halts : s.cpu.halted = true ∨ s.cpu.haltBug = false ∧ s.nextByte = 0x76
  quiet : (pendingInterrupts s.bus).isEmpty = true

namespace Rests

variable {s : Board β} (h : s.Rests)

include h

theorem pending_eq_false : s.pending = false := by
  rw [pending, h.quiet]
  rfl

theorem bus_step : s.step.board.bus = s.bus := by
  rcases Bool.eq_false_or_eq_true s.cpu.halted with hh | hh
  · rw [step_of_halted hh]
    rfl
  · obtain ⟨hbug, hopcode⟩ := h.halts.resolve_left (Bool.eq_false_iff.1 hh)
    exact (Executes.step_halt ⟨hh, h.stopped, hbug⟩ hopcode).bus

/-- The processor is halted after a step. -/
theorem control_step : s.step.board.cpu.halted = true ∧ s.step.board.cpu.stopped = false := by
  rcases Bool.eq_false_or_eq_true s.cpu.halted with hh | hh
  · rw [step_of_halted hh]
    exact ⟨hh, h.stopped⟩
  · obtain ⟨hbug, hopcode⟩ := h.halts.resolve_left (Bool.eq_false_iff.1 hh)
    have hcontrol := (Executes.step_halt ⟨hh, h.stopped, hbug⟩ hopcode).control
    rw [h.pending_eq_false, Control.execute, Bool.and_false, if_neg Bool.false_ne_true] at hcontrol
    constructor
    · refine (congrArg Control.halted hcontrol).trans ?_
      rw [Control.advance]
      split <;> rfl
    · refine (congrArg Control.stopped hcontrol).trans ?_
      rw [Control.advance]
      split <;> exact h.stopped

theorem handleInterrupts_eq : s.handleInterrupts = (none, s) := by
  have hdeaf : s.hears = false := by
    rw [hears, Control.hears, h.quiet]
    rfl
  have hrefuses : s.accepts = false := by rw [accepts, hdeaf, Bool.false_and]
  rw [handleInterrupts_of_not_accepts hrefuses, hdeaf, if_neg Bool.false_ne_true]

omit h in
theorem trailed (h : s.Rests) : s.trailed.Rests where
  stopped := h.stopped
  halts := h.halts
  quiet := h.quiet

/-- A processor at rest does nothing to its surroundings. -/
theorem stepAccesses_eq_nil : s.stepAccesses = [] :=
  congrArg Trail.accesses h.trailed.bus_step

theorem interruptAccesses_eq_nil : s.interruptAccesses = [] := by
  rw [interruptAccesses, h.trailed.handleInterrupts_eq]
  rfl

end Rests

end Board

end EightBit.Sm83
