import EightBit.Cpm.Machine
import EightBit.Proofs.Memory
import EightBit.Proofs.Z80.Kept
import Mathlib.Logic.Function.Iterate

/-!
# Steps of a CP/M machine

No interrupt arises in a CP/M machine. A step that does not end the run is therefore a step of the
processor and no more, with a call to the operating system before it if the program counter is at
the system entry. This module accounts for what a step takes, records and prints; nothing but those
calls prints.

## Main definitions

* `Machine.Active`, `Machine.Serves`: the next step makes the processor execute, and calls the
  operating system.
* `Machine.called`, `Machine.record?`: the board that the processor of the next step finds, and the
  record of what it executes.
* `callOutput`, `Machine.printed`: what a call prints, and what a step does.
* `Machine.after`: the machine after a number of steps.

## Main results

* `Machine.step_of_active`: what a step is.
* `Machine.totalCycles_step`, `Machine.trace_step`: the cycles it counts, and what it records.
* `Machine.map_address_record?`: where an executed instruction began.
* `Machine.consoleBytes_after`: all that a run prints.
-/

namespace EightBit.Cpm

open Z80 (Board)

/-! ### The operating system -/

/-- The processor prints nothing by itself. -/
theorem Bus.steady_console : Z80.Bus.Steady Bus.console :=
  ⟨fun _ _ _ => rfl, fun _ _ => rfl, fun _ _ => rfl, fun _ _ _ => rfl⟩

/-- No interrupt arises. -/
theorem handleInterrupts_eq (s : Board Bus) : s.handleInterrupts = (none, s) := by
  have haccepts : s.acceptsInt = false := Bool.and_false _
  exact if_neg (Bool.eq_false_iff.1 haccepts)

/-- What a call to the operating system prints: a character, or the bytes in front of the next end
character, but none twice. -/
def callOutput (s : Board Bus) : List UInt8 :=
  let r := s.cpu.regs
  if r.c = consoleOutput then [r.e]
  else if r.c = printString then
    (s.bus.memory.slice r.de addressCount).takeWhile (· != stringEnd)
  else []

namespace Machine

theorem console_printFrom (bus : Bus) (a : UInt16) (n : Nat) :
    (printFrom bus a n).console.toList =
      bus.console.toList ++ (bus.memory.slice a n).takeWhile (· != stringEnd) := by
  induction n generalizing bus a with
  | zero => exact (List.append_nil _).symm
  | succ n ih =>
    rw [printFrom, Memory.slice_succ, List.takeWhile_cons]
    by_cases h : bus.memory.read a = stringEnd
    · rw [if_pos h, if_neg (by simpa using h), List.append_nil]
    · rw [if_neg h, if_pos (by simpa using h), ih]
      simp [Bus.print]

theorem console_systemCall (s : Board Bus) :
    (systemCall s).bus.console.toList = s.bus.console.toList ++ callOutput s := by
  rw [systemCall, callOutput]
  split
  · simp [Bus.print]
  split
  · exact console_printFrom s.bus s.cpu.regs.de addressCount
  · exact (List.append_nil _).symm

/-- A call leaves the processor alone. -/
theorem cpu_systemCall (s : Board Bus) : (systemCall s).cpu = s.cpu := by
  rw [systemCall]
  split
  · rfl
  split <;> rfl

/-! ### One step -/

variable (m : Machine)

/-- The next step makes the processor execute: the program goes on. -/
def Active : Prop := m.finished = false ∧ m.board.cpu.regs.pc ≠ 0

/-- The next step calls the operating system. -/
def Serves : Prop := m.finished = false ∧ m.board.cpu.regs.pc = systemEntry

instance : Decidable m.Active := inferInstanceAs (Decidable (_ ∧ _))

instance : Decidable m.Serves := inferInstanceAs (Decidable (_ ∧ _))

/-- The board that the processor of the next step finds: after the call to the operating system if
there is one. -/
def called : Board Bus :=
  if m.board.cpu.regs.pc = systemEntry then systemCall m.board else m.board

/-- The record of the instruction that the next step executes, if it executes one. -/
def record? : Option TraceEntry :=
  if m.Active then m.called.step.entry? else none

/-- What the next step prints. -/
def printed : List UInt8 :=
  if m.Serves then callOutput m.board else []

theorem cpu_called : m.called.cpu = m.board.cpu := by
  rw [called]
  split
  · exact cpu_systemCall m.board
  · rfl

variable {m}

theorem Serves.active (h : m.Serves) : m.Active := by
  refine ⟨h.1, ?_⟩
  rw [h.2]
  decide

variable (m) in
/-- Executing is a step of the processor, since no interrupt follows it. -/
theorem execute_eq :
    m.execute =
      (m.called.step.cycles,
        { m with
          board := (observe m.traced m.trace m.called.step.board m.called.step.executed).2
          trace := (observe m.traced m.trace m.called.step.board m.called.step.executed).1
          totalCycles := m.totalCycles + m.called.step.cycles }) := by
  obtain ⟨board, traced, trace, finished, totalCycles⟩ := m
  unfold execute called
  dsimp only
  rw [handleInterrupts_eq]
  rfl

/-- A step of a machine whose program goes on is that of the processor. -/
theorem step_of_active (h : m.Active) :
    m.step =
      (m.called.step.cycles,
        { m with
          board := (observe m.traced m.trace m.called.step.board m.called.step.executed).2
          trace := (observe m.traced m.trace m.called.step.board m.called.step.executed).1
          totalCycles := m.totalCycles + m.called.step.cycles }) := by
  rw [step, if_neg (Bool.eq_false_iff.1 h.1), if_neg h.2, execute_eq]

/-- Any other step takes no time, and does nothing but end the run. -/
theorem step_of_not_active (h : ¬m.Active) :
    m.step.1 = 0 ∧ m.step.2.finished = true ∧ m.step.2.board.cpu = m.board.cpu ∧
      m.step.2.board.bus.console = m.board.bus.console ∧ m.step.2.trace = m.trace ∧
      m.step.2.totalCycles = m.totalCycles := by
  rw [step]
  split
  next hfinished => exact ⟨rfl, hfinished, rfl, rfl, rfl, rfl⟩
  next hgoes =>
    have hpc : m.board.cpu.regs.pc = 0 :=
      Decidable.not_not.1 fun hpc => h ⟨Bool.eq_false_iff.2 hgoes, hpc⟩
    rw [if_pos hpc]
    exact ⟨rfl, rfl, rfl, rfl, rfl, rfl⟩

/-! #### What is recorded and printed -/

section Observe

variable (traced : Bool) (trace : TraceLog) (board : Board Bus)
  (executed : Option (Z80.IndexMode × Z80.Instruction))

/-- Recording does nothing to the board but a note. -/
theorem observe_snd_eq_or :
    (observe traced trace board executed).2 = board ∨
      ∃ n, (observe traced trace board executed).2 = { board with bus := board.bus.note n } := by
  unfold observe
  split
  · exact .inl rfl
  split
  · exact .inl rfl
  split
  · exact .inr ⟨_, rfl⟩
  · exact .inl rfl

theorem cpu_observe : (observe traced trace board executed).2.cpu = board.cpu := by
  rcases observe_snd_eq_or traced trace board executed with h | ⟨n, h⟩ <;> rw [h]

theorem console_observe :
    (observe traced trace board executed).2.bus.console = board.bus.console := by
  rcases observe_snd_eq_or traced trace board executed with h | ⟨n, h⟩ <;> rw [h]
  rfl

/-- With tracing on, an executed instruction is recorded. -/
theorem trace_observe (r : Z80.Stepped Bus) :
    (observe true trace r.board r.executed).1 = r.entry?.elim trace trace.record := by
  unfold Z80.Stepped.entry?
  cases r.executed <;> rfl

end Observe

variable (m)

/-- The machine counts the cycles that it reports. -/
theorem totalCycles_step : m.step.2.totalCycles = m.totalCycles + m.step.1 := by
  by_cases h : m.Active
  · rw [step_of_active h]
  · obtain ⟨hcycles, -, -, -, -, htotal⟩ := step_of_not_active h
    rw [htotal, hcycles, Nat.add_zero]

/-- With tracing on, the record of a step is that of the instruction it executes. -/
theorem trace_step (htraced : m.traced = true) :
    m.step.2.trace = m.record?.elim m.trace m.trace.record := by
  rw [record?]
  by_cases h : m.Active
  · rw [if_pos h, step_of_active h, htraced]
    exact trace_observe m.trace m.called.step
  · obtain ⟨-, -, -, -, htrace, -⟩ := step_of_not_active h
    rw [if_neg h, htrace]
    rfl

/-- An instruction is executed unless the program has ended or the processor is halted, and begins
where the program counter is. -/
theorem map_address_record? :
    m.record?.map TraceEntry.address =
      if m.Active ∧ m.board.cpu.halted = false then some m.board.cpu.regs.pc else none := by
  rw [record?]
  by_cases h : m.Active
  · rw [if_pos h, ← cpu_called]
    cases hhalted : m.called.cpu.halted with
    | true =>
      rw [if_neg (by simp), Z80.Stepped.entry?, Board.step_of_halted hhalted]
      rfl
    | false =>
      rw [if_pos ⟨h, rfl⟩, Z80.Stepped.entry?, Board.executed_of_running hhalted]
      exact congrArg some (Board.instructionAddress_step hhalted)
  · rw [if_neg h, if_neg (fun hh => h hh.1)]
    rfl

/-- A step prints what it calls the operating system for, and nothing else. -/
theorem consoleBytes_step : m.step.2.consoleBytes = m.consoleBytes ++ m.printed := by
  rw [printed, consoleBytes, consoleBytes]
  by_cases h : m.Active
  · have hcalled : m.step.2.board.bus.console = m.called.bus.console := by
      rw [step_of_active h]
      exact (console_observe _ _ _ _).trans (m.called.steady_step Bus.steady_console)
    rw [hcalled, called]
    by_cases hpc : m.board.cpu.regs.pc = systemEntry
    · rw [if_pos hpc, if_pos (show m.Serves from ⟨h.1, hpc⟩), console_systemCall]
    · rw [if_neg hpc, if_neg (fun hserves => hpc hserves.2), List.append_nil]
  · obtain ⟨-, -, -, hconsole, -⟩ := step_of_not_active h
    rw [hconsole, if_neg (fun hserves => h hserves.active), List.append_nil]

/-! ### Several steps -/

/-- The machine after `n` steps. -/
def after (n : Nat) : Machine :=
  (fun m => m.step.2)^[n] m

theorem after_succ (n : Nat) : m.after (n + 1) = m.step.2.after n :=
  Function.iterate_succ_apply _ n m

theorem after_succ' (n : Nat) : m.after (n + 1) = (m.after n).step.2 :=
  Function.iterate_succ_apply' _ n m

/-- All that a run prints is what its steps call the operating system for, in order. -/
theorem consoleBytes_after (n : Nat) :
    (m.after n).consoleBytes =
      m.consoleBytes ++ (List.range n).flatMap fun k => (m.after k).printed := by
  induction n with
  | zero => exact (List.append_nil _).symm
  | succ n ih =>
    rw [after_succ', consoleBytes_step, ih, List.range_succ, List.flatMap_append,
      List.flatMap_singleton, List.append_assoc]

end Machine

end EightBit.Cpm
