import EightBit.Proofs.Cpm.Steps
import EightBit.Proofs.Recorder
import EightBit.Proofs.Z80.Surroundings

/-!
# Recording instructions on a CP/M machine

A step of a CP/M machine adds the instruction that it executes to the log, if instructions are
recorded, and looks neither at the log nor at the notices taken so far. A halted processor adds
nothing, and neither does a step that ends the run or comes after its end.

## Main definitions

* `Bus.hushed`: the bus with no notices, which keeps none either.
* `Machine.SameState`: two machines that differ at most in notices and records.
* `Machine.Fetches`: the next step executes an instruction.
* `Machine.recorder`: the machine as one that records.
* `Machine.recording`: the machine with an empty log.

## Main results

* `Machine.SameState.step_fst`, `Machine.SameState.step_snd`: machines in the same state make the
  same step.
* `Machine.faithful_recorder`, `Machine.bisimulation_sameState`: steps record what they execute, and
  do not look at the log.
* `Machine.observes_recording`: recording changes nothing but the log.
-/

namespace EightBit.Cpm

open Z80 (Board)

/-! ### Notices -/

/-- The bus with no notices, which keeps none either. -/
def Bus.hushed (bus : Bus) : Bus := { bus with journal := .silent }

/-- A processor cannot tell whether there are notices. -/
theorem Bus.hom_hushed : Z80.Bus.Hom Bus.hushed where
  read _ _ := rfl
  write _ _ _ := rfl
  note _ _ := rfl
  portIn _ _ := rfl
  portOut _ _ _ := rfl

namespace Machine

theorem printFrom_hushed (bus : Bus) (a : UInt16) (n : Nat) :
    printFrom bus.hushed a n = (printFrom bus a n).hushed := by
  induction n generalizing bus a with
  | zero => rfl
  | succ n ih =>
    rw [printFrom, printFrom, apply_ite Bus.hushed, ← ih]
    rfl

/-- So does the operating system not look at them. -/
theorem systemCall_hushed (s : Board Bus) :
    systemCall (s.map Bus.hushed) = (systemCall s).map Bus.hushed := by
  rw [systemCall, systemCall, apply_ite (Board.map Bus.hushed), apply_ite (Board.map Bus.hushed)]
  have hprint := printFrom_hushed s.bus s.cpu.regs.de addressCount
  refine if_congr Iff.rfl rfl (if_congr Iff.rfl ?_ rfl)
  exact congrArg (Board.mk s.cpu) hprint

variable (m : Machine)

theorem map_hushed_observe (traced : Bool) (trace : TraceLog) (board : Board Bus)
    (executed : Option (Z80.IndexMode × Z80.Instruction)) :
    (observe traced trace board executed).2.map Bus.hushed = board.map Bus.hushed := by
  rcases observe_snd_eq_or traced trace board executed with h | ⟨n, h⟩ <;> rw [h]
  rfl

/-! ### Steps -/

/-- A step that does not make the processor execute at most takes notice. -/
theorem map_hushed_step_of_not_active {m : Machine} (h : ¬m.Active) :
    m.step.2.board.map Bus.hushed = m.board.map Bus.hushed := by
  rw [step]
  split
  next => rfl
  next hgoes =>
    have hpc : m.board.cpu.regs.pc = 0 :=
      Decidable.not_not.1 fun hpc => h ⟨Bool.eq_false_iff.2 hgoes, hpc⟩
    rw [if_pos hpc]
    rfl

/-- Two machines that differ at most in notices and records. -/
structure SameState (m k : Machine) : Prop where
  board : m.board.map Bus.hushed = k.board.map Bus.hushed
  finished : m.finished = k.finished
  totalCycles : m.totalCycles = k.totalCycles

namespace SameState

variable {m} {k : Machine} (h : m.SameState k)

include h

theorem cpu : m.board.cpu = k.board.cpu := by
  have hcpu := congrArg Board.cpu h.board
  exact hcpu

theorem active_iff : m.Active ↔ k.Active := by
  rw [Active, Active, h.finished, h.cpu]

theorem called : m.called.map Bus.hushed = k.called.map Bus.hushed := by
  rw [Machine.called, Machine.called, apply_ite (Board.map Bus.hushed),
    apply_ite (Board.map Bus.hushed), ← systemCall_hushed, ← systemCall_hushed, h.board, h.cpu]

theorem step_called : m.called.step.map Bus.hushed = k.called.step.map Bus.hushed := by
  rw [← Bus.hom_hushed.step, h.called, Bus.hom_hushed.step]

theorem cycles_step_called : m.called.step.cycles = k.called.step.cycles := by
  have hcycles := congrArg Z80.Stepped.cycles h.step_called
  exact hcycles

theorem entry?_step_called : m.called.step.entry? = k.called.step.entry? := by
  have hentry := congrArg Z80.Stepped.entry? h.step_called
  exact hentry

/-- Machines in the same state take as long for a step. -/
theorem step_fst : m.step.1 = k.step.1 := by
  by_cases hactive : m.Active
  · rw [step_of_active hactive, step_of_active (h.active_iff.1 hactive)]
    exact h.cycles_step_called
  · rw [(step_of_not_active hactive).1, (step_of_not_active (mt h.active_iff.2 hactive)).1]

/-- They are in the same state after it. -/
theorem step_snd : m.step.2.SameState k.step.2 := by
  by_cases hactive : m.Active
  · rw [step_of_active hactive, step_of_active (h.active_iff.1 hactive)]
    refine ⟨?_, h.finished, ?_⟩
    · change (observe _ _ _ _).2.map Bus.hushed = (observe _ _ _ _).2.map Bus.hushed
      rw [map_hushed_observe, map_hushed_observe]
      exact congrArg Z80.Stepped.board h.step_called
    · exact congrArg₂ (· + ·) h.totalCycles h.cycles_step_called
  · have hactive' := mt h.active_iff.2 hactive
    obtain ⟨-, hfinished, -, -, -, htotal⟩ := step_of_not_active hactive
    obtain ⟨-, hfinished', -, -, -, htotal'⟩ := step_of_not_active hactive'
    refine ⟨?_, hfinished.trans hfinished'.symm, ?_⟩
    · rw [map_hushed_step_of_not_active hactive, map_hushed_step_of_not_active hactive', h.board]
    · rw [htotal, htotal', h.totalCycles]

theorem record? : m.record? = k.record? := by
  rw [Machine.record?, Machine.record?, h.entry?_step_called, if_congr h.active_iff rfl rfl]

end SameState

/-! ### Recording -/

/-- The next step executes an instruction: the program goes on and the processor is not halted. -/
def Fetches : Prop := m.Active ∧ m.board.cpu.halted = false

instance : DecidablePred Fetches := fun _ => inferInstanceAs (Decidable (_ ∧ _))

theorem isSome_record?_iff : m.record?.isSome = true ↔ m.Fetches := by
  have haddress := congrArg Option.isSome m.map_address_record?
  rw [Option.isSome_map] at haddress
  rw [haddress, Fetches]
  split
  next h => exact iff_of_true rfl h
  next h => exact iff_of_false Bool.false_ne_true h

theorem traced_step : m.step.2.traced = m.traced := by
  rw [step]
  split
  · rfl
  split
  · rfl
  · obtain ⟨board, traced, trace, finished, totalCycles⟩ := m
    rfl

theorem trace_observe_of_not_traced (trace : TraceLog) (board : Board Bus)
    (executed : Option (Z80.IndexMode × Z80.Instruction)) :
    (observe false trace board executed).1 = trace := by
  cases executed with
  | none => rfl
  | some i =>
    simp only [observe, Bool.false_eq_true, if_false]
    split <;> rfl

theorem trace_step_of_not_traced (h : m.traced = false) : m.step.2.trace = m.trace := by
  by_cases hactive : m.Active
  · rw [step_of_active hactive, h]
    exact trace_observe_of_not_traced _ _ _
  · exact (step_of_not_active hactive).2.2.2.2.1

/-- The machine as one that records. -/
def recorder : Recorder Machine where
  step := step
  log := trace
  records := traced
  record? := record?

theorem faithful_recorder : recorder.Faithful where
  records_step := traced_step
  log_step m := by
    change m.step.2.trace = if m.traced then m.record?.elim m.trace m.trace.record else m.trace
    cases h : m.traced with
    | true => exact m.trace_step h
    | false => exact m.trace_step_of_not_traced h

/-- Machines in the same state make the same step, whatever they record. -/
theorem bisimulation_sameState : recorder.Bisimulation SameState where
  cycles h := h.step_fst
  next h := h.step_snd
  record? h := h.record?

/-- The machine with an empty log, in which instructions are recorded if `on`. -/
def recording (on : Bool) (limit : Option Nat) : Machine :=
  { m with traced := on, trace := .create limit }

theorem sameState_recording (on on' : Bool) (limit limit' : Option Nat) :
    (m.recording on limit).SameState (m.recording on' limit') :=
  ⟨rfl, rfl, rfl⟩

/-- Recording changes nothing but the log. -/
theorem observes_recording (n limit : Nat) :
    recorder.Observes SameState Fetches (m.recording false none) (m.recording true none)
      (m.recording true (some limit)) n limit :=
  Recorder.observes faithful_recorder bisimulation_sameState isSome_record?_iff
    (m.sameState_recording _ _ _ _) (m.sameState_recording _ _ _ _) ⟨rfl, rfl⟩ ⟨rfl, rfl⟩
    ⟨rfl, rfl⟩ n

end Machine

end EightBit.Cpm
