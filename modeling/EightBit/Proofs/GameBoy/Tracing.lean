import EightBit.Proofs.GameBoy.PowerCycle
import EightBit.Proofs.Recorder

/-!
# Recording instructions on the handheld

A step of the handheld adds the instruction that it executes to the log, if instructions are
recorded, and does not look at the log. A step in which the processor is idle adds nothing.

## Main definitions

* `Machine.Fetches`, `Machine.record?`: the next step executes an instruction, and its entry.
* `Machine.recorder`: the handheld as a machine that records.
* `Machine.recording`: the machine with an empty log.

## Main results

* `Machine.isSome_record?_iff`: which steps have an entry.
* `Machine.faithful_recorder`, `Machine.bisimulation_sameState`: steps record what they execute, and
  do not look at the log.
* `Machine.observes_recording`: recording changes nothing but the log.
-/

namespace EightBit.GameBoy

open Sm83 (Board)

namespace Machine

variable (m : Machine)

/-- The next step executes an instruction: the processor is in neither of its idle states. -/
def Fetches : Prop := m.board.cpu.halted = false ∧ m.board.cpu.stopped = false

instance : DecidablePred Fetches := fun _ => inferInstanceAs (Decidable (_ ∧ _))

/-- The entry of the instruction that the next step executes, if it executes one. -/
def record? : Option TraceEntry := m.board.step.entry?

theorem isSome_record?_iff : m.record?.isSome = true ↔ m.Fetches := by
  rw [record?, Sm83.Stepped.entry?, Option.isSome_map, Fetches]
  rcases Bool.eq_false_or_eq_true m.board.cpu.halted with h | h
  · rw [Board.step_of_halted h, h]
    simp
  rcases Bool.eq_false_or_eq_true m.board.cpu.stopped with h' | h'
  · rw [Board.step_of_stopped h h', h']
    simp
  · rw [Board.step_of_awake h h']
    exact iff_of_true rfl ⟨h, h'⟩

/-- The handheld as a machine that records. -/
def recorder : Recorder Machine where
  step := step
  log := trace
  records m := m.config.trace
  record? := record?

theorem faithful_recorder : recorder.Faithful where
  records_step m := by
    change m.step.2.config.trace = m.config.trace
    rw [step_eq]
  log_step m := by
    change m.step.2.trace = if m.config.trace then _ else _
    rw [step_eq]
    dsimp only
    rw [trace_observe]
    refine if_congr Iff.rfl ?_ rfl
    change _ = m.record?.elim _ _
    rw [record?, Sm83.Stepped.entry?]
    cases m.board.step.executed <;> rfl

/-- Machines in the same state make the same step, whatever they record. -/
theorem bisimulation_sameState : recorder.Bisimulation SameState where
  cycles h := h.step_fst
  next h := h.step_snd
  record? {m k} h := by
    change m.record? = k.record?
    rw [record?, record?, Sm83.Stepped.entry?, Sm83.Stepped.entry?, h.executed_step, h.cpu_step]

/-- The machine with an empty log, in which instructions are recorded if `on`. -/
def recording (on : Bool) (limit : Option Nat) : Machine :=
  { m with config := { m.config with trace := on, traceLimit := limit }, trace := .create limit }

theorem sameState_recording (on on' : Bool) (limit limit' : Option Nat) :
    (m.recording on limit).SameState (m.recording on' limit') :=
  ⟨rfl, rfl, rfl⟩

/-- Recording changes nothing but the log. -/
theorem observes_recording (n limit : Nat) :
    recorder.Observes SameState Fetches (m.recording false none) (m.recording true none)
      (m.recording true (some limit)) n limit :=
  Recorder.observes faithful_recorder bisimulation_sameState isSome_record?_iff
    (m.sameState_recording _ _ _ _) (m.sameState_recording _ _ _ _) ⟨rfl, rfl⟩ ⟨rfl, rfl⟩
    ⟨rfl, rfl⟩ n

end Machine

end EightBit.GameBoy
