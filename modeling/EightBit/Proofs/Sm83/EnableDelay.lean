import EightBit.Proofs.Sm83.HaltBug

/-!
# The delay of EI

An `EI` takes effect at the end of the instruction after it, whatever that instruction is. Until
then no interrupt is dispatched, and from then on any is; only a `DI` in between calls the effect
off. A further `EI` neither prolongs the delay nor shortens it.

The devices may do anything while the processor waits: the surroundings are exchanged for arbitrary
ones after each of the two instructions.

## Main definitions

* `Control.InShadow`: the flip-flops between an `EI` and the instruction after it.
* `Board.EndsDelay`: what the instruction after an `EI` leads to.
* `Board.DelaysEnable`: what an `EI` leads to.

## Main results

* `Control.inShadow_of_ei`, `Control.InShadow.step`: the flip-flops in the two steps.
* `Board.delaysEnable_of_ei`: the two steps, and the interrupt logic after each of them.
-/

namespace EightBit.Sm83

/-! ### The flip-flops -/

namespace Control

/-- An `EI` has been executed, and the instruction after it is next. -/
structure InShadow (k : Control) : Prop where
  ime : k.ime = false
  halted : k.halted = false
  stopped : k.stopped = false
  schedule : k.schedule = .enabling

variable {k : Control}

/-- An `EI` that finds interrupts disabled and nothing in flight casts its shadow. -/
theorem inShadow_of_ei (hime : k.ime = false) (hidle : k.schedule = .idle) (hh : k.halted = false)
    (hs : k.stopped = false) (joypad pending : Bool) : (k.step joypad pending .ei).InShadow := by
  rw [step_of_awake hh hs]
  obtain ⟨ime, halted, stopped, haltBug, schedule⟩ := k
  subst hime hidle hh hs
  exact ⟨rfl, rfl, rfl, rfl⟩

/-- The shadow ends with the next instruction, after which interrupts are enabled unless it has
disabled them. Only a `STOP` leaves the processor deaf. -/
theorem InShadow.step (hk : k.InShadow) (joypad pending : Bool) (i : Instruction) :
    ((k.step joypad pending i).ime = true ↔ i ≠ .di) ∧
      (k.step joypad pending i).schedule = .idle ∧
      ((k.step joypad pending i).stopped = true ↔ i = .stop) ∧
      (i = .di → (k.step joypad pending i).halted = false) := by
  rw [step_of_awake hk.halted hk.stopped]
  obtain ⟨ime, halted, stopped, haltBug, schedule⟩ := k
  obtain ⟨rfl, rfl, rfl, rfl⟩ := hk
  cases i with
  | halt => cases pending <;> simp [release, execute, advance]
  | _ => simp [release, execute, advance]

end Control

theorem Cpu.enableScheduled_eq_false_iff {cpu : Cpu} :
    cpu.enableScheduled = false ↔ cpu.control.schedule = .idle :=
  bne_eq_false_iff_eq

/-! ### The board -/

namespace Board

variable {β : Type}

/-- The processor over other surroundings. -/
def withBus (s : Board β) (bus : β) : Board β := { s with bus := bus }

variable [Bus β]

/-- What the next instruction leads to, in the shadow of an `EI`. -/
structure EndsDelay (s : Board β) : Prop where
  executes : ∃ i, s.step.executed = some i
  /-- Interrupts are enabled when the instruction ends, unless it is `DI`. -/
  ime : s.step.board.cpu.ime = true ↔ s.step.executed ≠ some .di
  idle : s.step.board.cpu.enableScheduled = false
  /-- An interrupt that is pending by then is dispatched. A `STOP` waits for the joypad. -/
  dispatches : s.step.executed ≠ some .di → s.step.executed ≠ some .stop →
    ∀ bus, (s.step.board.withBus bus).pending = true →
      (s.step.board.withBus bus).handleInterrupts =
        (some dispatchCycles, (s.step.board.withBus bus).dispatch)
  /-- After `DI` nothing is dispatched. -/
  declines : s.step.executed = some .di →
    ∀ bus, (s.step.board.withBus bus).handleInterrupts = (none, s.step.board.withBus bus)

/-- What an `EI` leads to, whatever is requested and enabled after it. -/
structure DelaysEnable (s : Board β) : Prop where
  /-- Right after it nothing is dispatched. -/
  declines : ∀ bus,
    (s.step.board.withBus bus).handleInterrupts = (none, s.step.board.withBus bus)
  /-- The instruction after it, of which the surroundings decide which one it is. -/
  next : ∀ bus, (s.step.board.withBus bus).EndsDelay

variable {s : Board β}

/-- A processor that is awake executes the instruction at its program counter. -/
theorem executed_of_awake (hh : s.cpu.halted = false) (hs : s.cpu.stopped = false) :
    s.step.executed = some s.current := by
  rw [step_of_awake hh hs, ← current_uncharge]
  rfl

/-- Only a processor that is awake executes an instruction. -/
theorem awake_of_executed {i : Instruction} (h : s.step.executed = some i) :
    s.cpu.halted = false ∧ s.cpu.stopped = false ∧ s.current = i := by
  rcases Bool.eq_false_or_eq_true s.cpu.halted with hh | hh
  · rw [step_of_halted hh] at h
    exact absurd h nofun
  rcases Bool.eq_false_or_eq_true s.cpu.stopped with hs | hs
  · rw [step_of_stopped hh hs] at h
    exact absurd h nofun
  · rw [executed_of_awake hh hs] at h
    exact ⟨hh, hs, Option.some.inj h⟩

/-- With interrupts disabled, a processor that is awake is left alone. -/
theorem handleInterrupts_of_disabled (hime : s.cpu.ime = false) (hh : s.cpu.halted = false)
    (hs : s.cpu.stopped = false) : s.handleInterrupts = (none, s) := by
  have haccepts : s.accepts = false := by rw [accepts, hime, Bool.and_false]
  have hawoken : s.awoken =
      { s with cpu := { s.cpu with halted := s.cpu.halted, stopped := s.cpu.stopped } } := by
    rw [hh, hs]
    rfl
  rw [handleInterrupts_of_not_accepts haccepts, hawoken, ite_self]

/-- With interrupts enabled, whatever is pending is dispatched, unless the processor is stopped. -/
theorem handleInterrupts_of_enabled (hime : s.cpu.ime = true) (hs : s.cpu.stopped = false)
    (hp : s.pending = true) : s.handleInterrupts = (some dispatchCycles, s.dispatch) := by
  have hhears : s.hears = true := by
    rw [hears, Control.hears, Cpu.control, hs, Bool.not_false, Bool.true_or, Bool.and_true]
    exact hp
  rw [handleInterrupts_of_accepts (Bool.and_eq_true_iff.2 ⟨hhears, hime⟩), ← hs]

/-- The instruction in the shadow ends it. -/
theorem endsDelay_of_inShadow (h : s.cpu.control.InShadow) : s.EndsDelay := by
  have hexecuted : s.step.executed = some s.current := executed_of_awake h.halted h.stopped
  obtain ⟨hime, hidle, hstopped, hhalted⟩ := h.step s.joypadLow s.pending s.current
  rw [← control_step] at hime hidle hstopped hhalted
  have hne (i : Instruction) : s.step.executed ≠ some i ↔ s.current ≠ i := by
    rw [hexecuted, ne_eq, Option.some.injEq]
  refine ⟨⟨s.current, hexecuted⟩, hime.trans (hne .di).symm, ?_, fun hdi hstop bus hp => ?_,
    fun hdi bus => ?_⟩
  · exact Cpu.enableScheduled_eq_false_iff.2 hidle
  · have hawake : s.step.board.cpu.stopped = false :=
      Bool.eq_false_iff.2 (mt hstopped.1 ((hne .stop).1 hstop))
    exact handleInterrupts_of_enabled (hime.2 ((hne .di).1 hdi)) hawake hp
  · have hcurrent : s.current = .di := Option.some.inj (hexecuted.symm.trans hdi)
    have hoff : s.step.board.cpu.ime = false := Bool.eq_false_iff.2 fun h => hime.1 h hcurrent
    have hawake : s.step.board.cpu.stopped = false :=
      Bool.eq_false_iff.2 fun h => nomatch hcurrent.symm.trans (hstopped.1 h)
    exact handleInterrupts_of_disabled hoff (hhalted hcurrent) hawake

/-- **The delay of `EI`.** With interrupts disabled and no `EI` in flight, an `EI` is followed by
exactly one instruction before an interrupt is dispatched; then interrupts are enabled, unless that
instruction is a `DI`. -/
theorem delaysEnable_of_ei (hime : s.cpu.ime = false) (hidle : s.cpu.enableScheduled = false)
    (hei : s.step.executed = some .ei) : s.DelaysEnable := by
  obtain ⟨hh, hs, hcurrent⟩ := awake_of_executed hei
  have hshadow : s.step.board.cpu.control.InShadow := by
    rw [control_step, hcurrent]
    exact Control.inShadow_of_ei hime (Cpu.enableScheduled_eq_false_iff.1 hidle) hh hs _ _
  constructor
  · exact fun bus => handleInterrupts_of_disabled hshadow.ime hshadow.halted hshadow.stopped
  · exact fun bus => endsDelay_of_inShadow (s := s.step.board.withBus bus) hshadow

/-- With a request pending, `EI` is followed by one instruction before it is dispatched. -/
theorem delaysEnable_eiHaltBoard :
    eiHaltBoard.cpu.ime = false ∧ eiHaltBoard.cpu.enableScheduled = false ∧
      eiHaltBoard.step.executed = some .ei ∧ eiHaltBoard.pending = true ∧
        eiHaltBoard.DelaysEnable := by
  have hcurrent : eiHaltBoard.current = .ei :=
    current_of_opcode (by rw [nextByte_eiHaltBoard]; rfl) (by simp)
  have hei : eiHaltBoard.step.executed = some .ei :=
    (executed_of_awake rfl rfl).trans (congrArg some hcurrent)
  exact ⟨rfl, rfl, hei, pending_eiHaltBoard, delaysEnable_of_ei rfl rfl hei⟩

end Board

end EightBit.Sm83
