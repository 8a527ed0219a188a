import EightBit.GameBoy.Machine
import EightBit.Proofs.GameBoy.Registers
import EightBit.Proofs.Sm83.Accesses

/-!
# Runs of the machine

A step of the machine is a step of the processor, the time it took, and the interrupt that may
follow with the time that takes. What the accesses of the processor, notices and the passing of time
preserve of the bus is preserved by a step, and so by any number of steps and frames. What is
preserved may depend on the time that has passed, which is what the devices saw of the cycles
reported.

## Main definitions

* `Machine.settled`, `Machine.entryCycles`: the board when the interrupt logic looks at it, and the
  cycles of the interrupt.
* `Machine.accesses`, `Machine.elapsed`: what a step does to the bus, and the time that passes
  there.
* `Machine.Call`, `Machine.run`, `Machine.starts`: calls of a driver, their effect, and the machines
  that the steps in them start from.

## Main results

* `Machine.step_induction`: what a step preserves of the bus.
* `Machine.totalCycles_run`, `Machine.run_fst`: the cycles that the machine counts and reports.
* `Machine.run_induction`, `Machine.forall_starts`: what calls preserve.
-/

namespace EightBit.GameBoy.Machine

open Sm83 (Board Access)

/-! ### Recording -/

section Observe

variable (config : Config) (trace : TraceLog) (board : Board Bus)
  (executed : Option Sm83.Instruction)

theorem observe_snd_eq_or :
    (observe config trace board executed).2 = board ∨
      ∃ n, (observe config trace board executed).2 = { board with bus := board.bus.note n } := by
  unfold observe
  split
  · exact .inl rfl
  split
  · exact .inl rfl
  split
  · exact .inr ⟨_, rfl⟩
  · exact .inl rfl

theorem cpu_observe : (observe config trace board executed).2.cpu = board.cpu := by
  rcases observe_snd_eq_or config trace board executed with h | ⟨n, h⟩ <;> rw [h]

/-- Recording does nothing to the bus but notes. -/
theorem bus_observe_induction {P : Bus → Prop} (hbus : P board.bus)
    (hnote : ∀ n, P (board.bus.note n)) : P (observe config trace board executed).2.bus := by
  rcases observe_snd_eq_or config trace board executed with h | ⟨n, h⟩ <;> rw [h]
  · exact hbus
  · exact hnote n

end Observe

/-! ### One step -/

variable (m : Machine)

/-- The board when the interrupt logic looks at it. -/
def settled : Board Bus :=
  settle (observe m.config m.trace m.board.step.board m.board.step.executed).2 m.board.step.cycles

/-- The cycles of the interrupt that follows the step, if one is taken. -/
def entryCycles : Nat :=
  m.settled.handleInterrupts.1.getD 0

/-- The time that passes for the devices in a step: none for an instruction that stops the
processor. -/
def elapsed : Nat :=
  (if m.board.step.board.cpu.stopped then 0 else m.board.step.cycles) + m.entryCycles

/-- What the processor does to the bus in a step, the latest access first. -/
def accesses : List Access :=
  m.settled.interruptAccesses ++ m.board.stepAccesses

theorem step_fst : m.step.1 = m.board.step.cycles + m.entryCycles := by
  obtain ⟨config, board, trace, overshoot, totalCycles⟩ := m
  unfold step entryCycles settled
  dsimp only
  split
  next h => rw [h]; rfl
  next h => rw [h]; rfl

theorem totalCycles_step : m.step.2.totalCycles = m.totalCycles + m.step.1 := by
  obtain ⟨config, board, trace, overshoot, totalCycles⟩ := m
  unfold step
  dsimp only
  split <;> rfl

theorem cpu_step : m.step.2.board.cpu = m.settled.handleInterrupts.2.cpu := by
  obtain ⟨config, board, trace, overshoot, totalCycles⟩ := m
  unfold step settled
  dsimp only
  split <;> rfl

theorem bus_step :
    m.step.2.board.bus =
      match m.settled.handleInterrupts.1 with
      | some n => m.settled.handleInterrupts.2.bus.passTime n
      | none => m.settled.handleInterrupts.2.bus := by
  obtain ⟨config, board, trace, overshoot, totalCycles⟩ := m
  unfold step settled
  dsimp only
  generalize (settle (observe config trace board.step.board board.step.executed).2
    board.step.cycles).handleInterrupts = p
  obtain ⟨_ | n, b⟩ := p <;> rfl

/-- Recording and time leave the processor as the step left it. -/
theorem cpu_settled : m.settled.cpu = m.board.step.board.cpu := by
  rw [settled, settle]
  split <;> exact cpu_observe _ _ _ _

variable {m}

/-- All the cycles of a step pass for the devices unless it stops the processor. -/
theorem elapsed_of_running (h : m.board.step.board.cpu.stopped = false) :
    m.elapsed = m.step.1 := by
  rw [elapsed, h, if_neg Bool.false_ne_true, step_fst]

/-- What the accesses of a step, notices and time preserve of the bus is preserved by the step. -/
theorem step_induction {P : Nat → Bus → Prop} {t : Nat} (hbus : P t m.board.bus)
    (haccess : ∀ x ∈ m.accesses, ∀ t bus, P t bus → P t (x.apply bus))
    (hnote : ∀ n t bus, P t bus → P t (bus.note n))
    (htime : ∀ n t bus, P t bus → P (t + n) (bus.passTime n)) :
    P (t + m.elapsed) m.step.2.board.bus := by
  have hstep : P t m.board.step.board.bus :=
    Board.bus_step_induction hbus fun x hx => haccess x (List.mem_append_right _ hx) t
  have hobserved : P t (observe m.config m.trace m.board.step.board m.board.step.executed).2.bus :=
    bus_observe_induction _ _ _ _ hstep fun n => hnote n t _ hstep
  -- The time of the step passes, unless the clock has stopped.
  have hsettled (u : Nat)
      (hu : u = if m.board.step.board.cpu.stopped then 0 else m.board.step.cycles) :
      P (t + u) m.settled.bus := by
    rw [settled, settle, cpu_observe, hu]
    split
    · exact hobserved
    · exact htime _ t _ hobserved
  have hinterrupt : P (t + _) m.settled.handleInterrupts.2.bus :=
    Board.bus_handleInterrupts_induction (hsettled _ rfl)
      fun x hx => haccess x (List.mem_append_left _ hx) _
  rw [bus_step, elapsed, entryCycles, ← Nat.add_assoc]
  cases m.settled.handleInterrupts.1 with
  | none => exact hinterrupt
  | some n => exact htime n _ _ hinterrupt

/-! ### Calls -/

/-- What a driver may ask of the machine. -/
inductive Call
  /-- One step. -/
  | step
  /-- Steps for the time of one frame. -/
  | frame

/-- The cycles that a call reports, and the machine after it. -/
def call (m : Machine) : Call → Nat × Machine
  | .step => m.step
  | .frame => m.stepFrame

/-- The cycles that calls report together, and the machine after them, the first one first. -/
def run (m : Machine) : List Call → Nat × Machine
  | [] => (0, m)
  | c :: cs =>
    let (n, m) := m.call c
    let (total, m) := run m cs
    (n + total, m)

/-- The machines that the steps for a budget start from. -/
def startsFor (budget : Nat) : (fuel ran : Nat) → Machine → List Machine
  | 0, _, _ => []
  | fuel + 1, ran, m =>
    if ran < budget then m :: startsFor budget fuel (ran + m.step.1) m.step.2 else []

/-- The machines that the steps of a call start from. -/
def Call.starts (m : Machine) : Call → List Machine
  | .step => [m]
  | .frame => startsFor (dotsPerFrame - m.overshoot) (dotsPerFrame - m.overshoot) 0 m

/-- The machines that the steps of several calls start from. -/
def starts (m : Machine) : List Call → List Machine
  | [] => []
  | c :: cs => c.starts m ++ starts (m.call c).2 cs

/-- The cycles that the steps from a number of machines report together. -/
def stepCycles : List Machine → Nat
  | [] => 0
  | m :: ms => m.step.1 + stepCycles ms

theorem stepCycles_cons (m : Machine) (ms : List Machine) :
    stepCycles (m :: ms) = m.step.1 + stepCycles ms := rfl

theorem stepCycles_append (ms ns : List Machine) :
    stepCycles (ms ++ ns) = stepCycles ms + stepCycles ns := by
  induction ms with
  | nil => exact (Nat.zero_add _).symm
  | cons m ms ih => rw [List.cons_append, stepCycles_cons, stepCycles_cons, ih, Nat.add_assoc]

/-! #### Steps for a budget -/

section RunFor

variable (budget fuel ran : Nat) (m : Machine)

theorem runFor_fst :
    (runFor budget fuel ran m).1 = ran + stepCycles (startsFor budget fuel ran m) := by
  induction fuel generalizing ran m with
  | zero => rfl
  | succ fuel ih =>
    rw [runFor, startsFor]
    split
    · rw [stepCycles_cons, ← Nat.add_assoc]
      exact ih _ _
    · rfl

theorem totalCycles_runFor :
    (runFor budget fuel ran m).2.totalCycles =
      m.totalCycles + stepCycles (startsFor budget fuel ran m) := by
  induction fuel generalizing ran m with
  | zero => rfl
  | succ fuel ih =>
    rw [runFor, startsFor]
    split
    · rw [stepCycles_cons, ← Nat.add_assoc, ← totalCycles_step]
      exact ih _ _
    · rfl

variable {budget fuel ran m}

theorem runFor_induction {P : Machine → Prop} (hm : P m)
    (hstep : ∀ m' ∈ startsFor budget fuel ran m, P m' → P m'.step.2) :
    P (runFor budget fuel ran m).2 := by
  induction fuel generalizing ran m with
  | zero => exact hm
  | succ fuel ih =>
    rw [startsFor] at hstep
    rw [runFor]
    split
    next h =>
      rw [if_pos h] at hstep
      exact ih (hstep m List.mem_cons_self hm) fun m' hm' => hstep m' (List.mem_cons_of_mem _ hm')
    next => exact hm

end RunFor

/-! #### One call and several -/

theorem call_fst (m : Machine) (c : Call) : (m.call c).1 = stepCycles (c.starts m) := by
  cases c with
  | step => rfl
  | frame => exact (runFor_fst _ _ 0 m).trans (Nat.zero_add _)

theorem totalCycles_call (m : Machine) (c : Call) :
    (m.call c).2.totalCycles = m.totalCycles + (m.call c).1 := by
  rw [call_fst]
  cases c with
  | step => exact m.totalCycles_step
  | frame => exact totalCycles_runFor _ _ 0 m

/-- What the steps of a call preserve holds after it, if the bookkeeping between frames does not
matter. -/
theorem call_induction {P : Machine → Prop} {m : Machine} (hm : P m)
    (hovershoot : ∀ m n, P m → P { m with overshoot := n }) (c : Call)
    (hstep : ∀ m' ∈ c.starts m, P m' → P m'.step.2) : P (m.call c).2 := by
  cases c with
  | step => exact hstep m (List.mem_singleton_self m) hm
  | frame => exact hovershoot _ _ (runFor_induction hm hstep)

/-- What holds at first and is preserved by every step holds of all machines that steps start
from. -/
theorem forall_startsFor {P : Machine → Prop} {m : Machine} (hm : P m)
    (hstep : ∀ m, P m → P m.step.2) (budget fuel ran : Nat) :
    ∀ m' ∈ startsFor budget fuel ran m, P m' := by
  induction fuel generalizing ran m with
  | zero => exact fun _ h => absurd h List.not_mem_nil
  | succ fuel ih =>
    rw [startsFor]
    split
    · exact List.forall_mem_cons.2 ⟨hm, ih (hstep m hm) _⟩
    · exact fun _ h => absurd h List.not_mem_nil

theorem forall_starts {P : Machine → Prop} {m : Machine} (hm : P m)
    (hovershoot : ∀ m n, P m → P { m with overshoot := n }) (hstep : ∀ m, P m → P m.step.2)
    (cs : List Call) : ∀ m' ∈ m.starts cs, P m' := by
  induction cs generalizing m with
  | nil => exact fun _ h => absurd h List.not_mem_nil
  | cons c cs ih =>
    have hcall : P (m.call c).2 := call_induction hm hovershoot c fun m' _ => hstep m'
    have hstarts : ∀ m' ∈ c.starts m, P m' := by
      cases c with
      | step => exact List.forall_mem_singleton.2 hm
      | frame => exact forall_startsFor hm hstep _ _ _
    exact List.forall_mem_append.2 ⟨hstarts, ih hcall⟩

/-- The cycles that calls report are those of their steps. -/
theorem run_fst (m : Machine) (cs : List Call) : (m.run cs).1 = stepCycles (m.starts cs) := by
  induction cs generalizing m with
  | nil => rfl
  | cons c cs ih =>
    rw [starts, stepCycles_append, ← call_fst, ← ih]
    rfl

/-- The machine counts the cycles that it reports. -/
theorem totalCycles_run (m : Machine) (cs : List Call) :
    (m.run cs).2.totalCycles = m.totalCycles + (m.run cs).1 := by
  induction cs generalizing m with
  | nil => rfl
  | cons c cs ih =>
    have hrest := ih (m.call c).2
    rw [totalCycles_call, Nat.add_assoc] at hrest
    exact hrest

/-- What the steps of the calls preserve holds after them. -/
theorem run_induction {P : Machine → Prop} {m : Machine} (hm : P m)
    (hovershoot : ∀ m n, P m → P { m with overshoot := n }) (cs : List Call)
    (hstep : ∀ m' ∈ m.starts cs, P m' → P m'.step.2) : P (m.run cs).2 := by
  induction cs generalizing m with
  | nil => exact hm
  | cons c cs ih =>
    rw [starts] at hstep
    have hcall : P (m.call c).2 :=
      call_induction hm hovershoot c fun m' hm' => hstep m' (List.mem_append_left _ hm')
    exact ih hcall fun m' hm' => hstep m' (List.mem_append_right _ hm')

/-! ### Power-on -/

/-- Puts a cartridge in. An image that does not fit is refused, and nothing changes. -/
def insert (m : Machine) (image : List UInt8) : Machine :=
  match m.loadRom image with
  | .ok m => m
  | .error _ => m

/-- A cartridge image is refused if it is longer than its window. -/
theorem loadRom_eq (m : Machine) (image : List UInt8) :
    m.loadRom image =
      if image.length ≤ romWindowSize then .ok (m.insert image) else .error ⟨image.length⟩ := by
  unfold insert loadRom Bus.loadRom
  by_cases h : image.length ≤ romWindowSize
  · simp only [if_pos h]
  · simp only [if_neg h]

theorem bus_insert_eq_or (m : Machine) (image : List UInt8) :
    (m.insert image).board.bus = m.board.bus.insert image ∨
      ∃ n, (m.insert image).board.bus = (m.board.bus.insert image).note n := by
  unfold insert loadRom Bus.insert
  cases m.board.bus.loadRom image with
  | error n => exact .inl rfl
  | ok bus => exact .inr ⟨_, rfl⟩

theorem insert_eq (m : Machine) (image : List UInt8) :
    m.insert image = m.mapBus fun _ => (m.insert image).board.bus := by
  unfold insert loadRom
  cases m.board.bus.loadRom image <;> rfl

theorem cpu_insert (m : Machine) (image : List UInt8) :
    (m.insert image).board.cpu = m.board.cpu := by
  rw [insert_eq]
  rfl

theorem peek_insert (m : Machine) (image : List UInt8) (r : UInt16) :
    (m.insert image).board.bus.peek r = (m.board.bus.insert image).peek r := by
  rcases bus_insert_eq_or m image with h | ⟨n, h⟩ <;> rw [h]
  exact Bus.peek_note _ n r

end EightBit.GameBoy.Machine
