import EightBit.Sm83.Dispatch

/-!
# The control state of an SM83

Five flip-flops decide what the next step of the processor does and whether an interrupt is taken
after it: the interrupt master enable, the two idle states, the latch of the `HALT` bug and the
schedule of `EI`. They form a small machine of their own. What a step does to them depends on the
instruction alone, and beyond it on two facts about the surroundings: whether an interrupt is
pending, and whether a joypad line is low.

## Main definitions

* `Control`, `Cpu.control`: the flip-flops, and those of a processor.
* `Control.execute`, `Control.step`, `Control.interrupt`: the machine they form.
* `Board.current`, `Board.pending`: the instruction at the program counter, and whether an interrupt
  is pending.

## Main results

* `Board.control_execute`: an instruction acts on the flip-flops as `Control.execute` says.
* `Board.control_step`, `Board.control_handleInterrupts`: so do a step and the interrupt logic.
* `Board.handleInterrupts_fst`: when an interrupt is taken.
-/

namespace EightBit.Sm83

/-- The flip-flops that decide what the processor does next. -/
@[ext] structure Control where
  ime : Bool
  halted : Bool
  stopped : Bool
  haltBug : Bool
  schedule : ImeSchedule
  deriving DecidableEq, Repr

/-- The flip-flops of a processor. -/
def Cpu.control (cpu : Cpu) : Control where
  ime := cpu.ime
  halted := cpu.halted
  stopped := cpu.stopped
  haltBug := cpu.haltBug
  schedule := cpu.schedule

namespace Control

/-- The latch of the `HALT` bug released, as a fetch does. -/
def release (k : Control) : Control :=
  { k with haltBug := false }

theorem release_eq_self {k : Control} (h : k.haltBug = false) : k.release = k :=
  Control.ext rfl rfl rfl h.symm rfl

@[simp] theorem release_release (k : Control) : k.release.release = k.release := rfl

/-- The effect of an instruction whose bytes have been fetched; `pending` tells whether an interrupt
is pending. -/
def execute (k : Control) (pending : Bool) : Instruction → Control
  | .stop => { k with stopped := true, halted := false }
  | .halt => if !k.ime && pending then { k with haltBug := true } else { k with halted := true }
  | .di => { k with ime := false, schedule := .idle }
  | .ei => if !k.ime && k.schedule == .idle then { k with schedule := .requested } else k
  | .reti => { k with ime := true, schedule := .idle }
  | _ => k

/-- The end of an executed instruction, which advances an `EI` in flight. -/
def advance (k : Control) : Control :=
  match k.schedule with
  | .idle => k
  | .requested => { k with schedule := .enabling }
  | .enabling => { k with ime := true, schedule := .idle }

/-- A step with the instruction `i` at the program counter; `joypad` tells whether a joypad line is
low. -/
def step (k : Control) (joypad pending : Bool) (i : Instruction) : Control :=
  if k.halted then k
  else if k.stopped then { k with stopped := !joypad }
  else (k.release.execute pending i).advance

theorem step_of_halted {k : Control} (h : k.halted = true) (joypad pending : Bool)
    (i : Instruction) : k.step joypad pending i = k :=
  if_pos h

theorem step_of_stopped {k : Control} (h : k.halted = false) (h' : k.stopped = true)
    (joypad pending : Bool) (i : Instruction) :
    k.step joypad pending i = { k with stopped := !joypad } :=
  (if_neg (Bool.eq_false_iff.1 h)).trans (if_pos h')

theorem step_of_awake {k : Control} (h : k.halted = false) (h' : k.stopped = false)
    (joypad pending : Bool) (i : Instruction) :
    k.step joypad pending i = (k.release.execute pending i).advance :=
  (if_neg (Bool.eq_false_iff.1 h)).trans (if_neg (Bool.eq_false_iff.1 h'))

/-- Whether the pending interrupts are heard: a stopped processor only hears the joypad. -/
def hears (k : Control) (pending : Interrupts) : Bool :=
  !pending.isEmpty && (!k.stopped || pending.contains .joypad)

/-- The interrupt logic: an interrupt that is heard ends both idle states, and is taken if the
master enable is set. -/
def interrupt (k : Control) (pending : Interrupts) : Control :=
  if k.hears pending then
    if k.ime then { k with ime := false, halted := false, stopped := false, schedule := .idle }
    else { k with halted := false, stopped := false }
  else k

end Control

/-- The entry of the opcode `first`, or of `second` after a prefix. -/
def Decode.entry (first second : UInt8) : Entry :=
  match (primary first).instruction with
  | .prefixCb => ⟨(primary first).cycles + (cb second).cycles, (cb second).instruction⟩
  | _ => primary first

namespace Board

/-- Whether an interrupt is requested and enabled. -/
def pending {β : Type} [Bus β] (s : Board β) : Bool :=
  !(pendingInterrupts s.bus).isEmpty

/-- Whether a joypad line is low. -/
def joypadLow {β : Type} [Bus β] (s : Board β) : Bool :=
  s.load joypadAddress &&& 0x0F != 0x0F

/-- The board with no cycles charged. -/
def uncharge {β : Type} (s : Board β) : Board β :=
  { s with cpu := { s.cpu with extraCycles := 0 } }

/-- The instruction at the program counter. -/
def current {β : Type} [Bus β] (s : Board β) : Instruction :=
  s.begin.decoded.1.instruction

/-! ### Parts of an instruction -/

section Frame

variable {β : Type} (s : Board β)

@[simp] theorem control_mapRegs (f : Registers → Registers) :
    (s.mapRegs f).cpu.control = s.cpu.control := rfl

@[simp] theorem control_jumpTo (pc : UInt16) : (s.jumpTo pc).cpu.control = s.cpu.control := rfl

@[simp] theorem control_drop : s.drop.cpu.control = s.cpu.control := rfl

@[simp] theorem control_begin : s.begin.cpu.control = s.cpu.control := rfl

@[simp] theorem control_chargeIf (taken : Bool) (n : Nat) :
    (s.chargeIf taken n).cpu.control = s.cpu.control := by
  cases taken <;> rfl

/-- A jump that may not be taken leaves the flip-flops alone either way. -/
theorem control_ite_jumpTo (taken : Bool) (a : UInt16) :
    (if taken then s.jumpTo a else s).cpu.control = s.cpu.control := by
  cases taken <;> rfl

variable [Bus β]

@[simp] theorem control_store (a : UInt16) (b : UInt8) :
    (s.store a b).cpu.control = s.cpu.control := rfl

@[simp] theorem control_push (w : UInt16) : (s.push w).cpu.control = s.cpu.control := rfl

@[simp] theorem control_setOperand (x : Reg8) (v : UInt8) :
    (s.setOperand x v).cpu.control = s.cpu.control := by
  cases x <;> rfl

@[simp] theorem control_update (x : Reg8) (f : Registers → UInt8 → UInt8)
    (g : Registers → UInt8 → Registers) : (s.update x f g).cpu.control = s.cpu.control := by
  rw [update, control_setOperand, control_mapRegs]

/-- Fetching a byte releases the latch of the `HALT` bug. -/
@[simp] theorem control_skip : s.skip.cpu.control = s.cpu.control.release := by
  unfold skip
  dsimp only
  split
  next => rfl
  next h => exact (Control.release_eq_self (Bool.eq_false_iff.2 h)).symm

/-- A fetch moves the program counter on, unless the `HALT` bug holds it back. -/
theorem pc_skip :
    s.skip.cpu.regs.pc = if s.cpu.haltBug then s.cpu.regs.pc else s.cpu.regs.pc + 1 := by
  unfold skip
  dsimp only
  split <;> rfl

@[simp] theorem bus_skip : s.skip.bus = s.bus := by
  unfold skip
  dsimp only
  split <;> rfl

@[simp] theorem control_skipWord : s.skipWord.cpu.control = s.cpu.control.release := by
  rw [skipWord, control_skip, control_skip, Control.release_release]

@[simp] theorem control_jumpRelative (taken : Bool) :
    (s.jumpRelative taken).cpu.control = s.cpu.control.release :=
  (control_ite_jumpTo _ taken _).trans (control_skip s)

@[simp] theorem control_jumpAbsolute (taken : Bool) :
    (s.jumpAbsolute taken).cpu.control = s.cpu.control.release :=
  (control_ite_jumpTo _ taken _).trans (control_skipWord s)

@[simp] theorem control_callIf (taken : Bool) :
    (s.callIf taken).cpu.control = s.cpu.control.release := by
  rw [← control_skipWord]
  cases taken <;> rfl

@[simp] theorem control_returnIf (taken : Bool) :
    (s.returnIf taken).cpu.control = s.cpu.control := by
  cases taken <;> rfl

end Frame

/-! ### Instructions -/

theorem control_scheduleEnable {β : Type} (s : Board β) (pending : Bool) :
    s.scheduleEnable.cpu.control = s.cpu.control.execute pending .ei :=
  apply_ite (fun t : Board β => t.cpu.control) _ _ _

variable {β : Type} [Bus β]

theorem control_halt (s : Board β) :
    s.halt.cpu.control = s.cpu.control.execute s.pending .halt :=
  apply_ite (fun t : Board β => t.cpu.control) _ _ _

theorem control_stop (s : Board β) :
    s.stop.cpu.control = { s.skip.cpu.control with stopped := true, halted := false } := rfl

/-- An instruction acts on the flip-flops as the control machine says, once the fetch of its opcode
has released the latch of the `HALT` bug. -/
theorem control_execute (s : Board β) (i : Instruction) (h : s.cpu.haltBug = false) :
    (s.execute i).cpu.control = s.cpu.control.execute s.pending i := by
  -- Operands are fetched after the latch has been released, so fetching them changes nothing.
  have hskip : s.cpu.control.release = s.cpu.control := Control.release_eq_self h
  cases i with
  | halt => exact s.control_halt
  | ei => exact s.control_scheduleEnable s.pending
  | stop => rw [execute, control_stop, control_skip, hskip, Control.execute]
  | di | reti | invalid => rfl
  | _ => simp [execute, Control.execute, hskip]

/-! ### Steps -/

/-- Decoding fetches the opcode bytes, of which the first releases the latch. -/
theorem control_decoded (s : Board β) : s.decoded.2.cpu.control = s.cpu.control.release := by
  unfold decoded
  dsimp only
  split
  · rw [control_skip, control_skip]
    rfl
  · rw [control_skip]

theorem bus_decoded (s : Board β) : s.decoded.2.bus = s.bus := by
  unfold decoded
  dsimp only
  split
  · rw [bus_skip, bus_skip]
  · rw [bus_skip]

theorem control_advanceSchedule (cpu : Cpu) :
    cpu.advanceSchedule.control = cpu.control.advance := by
  unfold Cpu.advanceSchedule Control.advance
  cases h : cpu.schedule <;> simp [Cpu.control, h]

theorem control_executeNext (s : Board β) :
    s.executeNext.board.cpu.control =
      (s.cpu.control.release.execute s.pending s.current).advance := by
  have hlatch : s.begin.decoded.2.cpu.haltBug = false :=
    congrArg Control.haltBug (control_decoded s.begin)
  have hbus : s.begin.decoded.2.pending = s.pending := by
    rw [pending, bus_decoded]
    rfl
  calc s.executeNext.board.cpu.control
      = (s.begin.decoded.2.execute s.current).cpu.control.advance := control_advanceSchedule _
    _ = (s.begin.decoded.2.cpu.control.execute s.pending s.current).advance := by
      rw [control_execute _ _ hlatch, hbus]
    _ = (s.cpu.control.release.execute s.pending s.current).advance := by
      rw [control_decoded, control_begin]

theorem control_watchJoypad (s : Board β) (h : s.cpu.stopped = true) :
    s.watchJoypad.cpu.control = { s.cpu.control with stopped := !s.joypadLow } := by
  unfold watchJoypad joypadLow
  cases s.load joypadAddress &&& 0x0F != 0x0F with
  | true => rfl
  | false => exact Control.ext rfl rfl h rfl rfl

/-- The entry decoded is determined by two bytes, of which the second matters after a prefix. -/
theorem decoded_fst (s : Board β) :
    s.decoded.1 = Decode.entry s.nextByte (s.load s.skip.cpu.regs.pc) := by
  have hnext : s.skip.nextByte = s.load s.skip.cpu.regs.pc := by
    rw [nextByte, load, bus_skip, load]
  unfold decoded Decode.entry
  dsimp only
  rw [hnext]
  cases (Decode.primary s.nextByte).instruction <;> rfl

/-- The instruction at the program counter does not depend on the cycles charged so far. -/
theorem current_uncharge (s : Board β) : s.uncharge.current = s.current := by
  simp only [current, decoded_fst, pc_skip]
  rfl

theorem step_of_halted {s : Board β} (h : s.cpu.halted = true) :
    s.step = ⟨idleCycles, s.uncharge, none⟩ :=
  if_pos h

theorem step_of_stopped {s : Board β} (h : s.cpu.halted = false) (h' : s.cpu.stopped = true) :
    s.step = ⟨idleCycles, s.uncharge.watchJoypad, none⟩ :=
  (if_neg (Bool.eq_false_iff.1 h)).trans (if_pos h')

theorem step_of_awake {s : Board β} (h : s.cpu.halted = false) (h' : s.cpu.stopped = false) :
    s.step = s.uncharge.executeNext :=
  (if_neg (Bool.eq_false_iff.1 h)).trans (if_neg (Bool.eq_false_iff.1 h'))

omit [Bus β] in
theorem uncharge_eq_self {s : Board β} (h : s.cpu.extraCycles = 0) : s.uncharge = s := by
  rw [uncharge, ← h]

/-- A stopped processor waits as long as no line of the joypad is low, halted or not. -/
theorem step_of_released {s : Board β} (hs : s.cpu.stopped = true) (hlines : s.joypadLow = false)
    (hcharge : s.cpu.extraCycles = 0) : s.step = ⟨idleCycles, s, none⟩ := by
  have hwatch : s.watchJoypad = s := if_neg (Bool.eq_false_iff.1 hlines)
  rcases Bool.eq_false_or_eq_true s.cpu.halted with h | h
  · rw [step_of_halted h, uncharge_eq_self hcharge]
  · rw [step_of_stopped h hs, uncharge_eq_self hcharge, hwatch]

/-- A step acts on the flip-flops as the control machine says. -/
theorem control_step (s : Board β) :
    s.step.board.cpu.control = s.cpu.control.step s.joypadLow s.pending s.current := by
  rcases Bool.eq_false_or_eq_true s.cpu.halted with h | h
  · rw [step_of_halted h, Control.step_of_halted h]
    rfl
  rcases Bool.eq_false_or_eq_true s.cpu.stopped with h' | h'
  · rw [step_of_stopped h h', Control.step_of_stopped h h']
    exact control_watchJoypad _ h'
  · rw [step_of_awake h h', Control.step_of_awake h h', control_executeNext, current_uncharge]
    rfl

theorem extraCycles_watchJoypad (s : Board β) :
    s.watchJoypad.cpu.extraCycles = s.cpu.extraCycles := by
  unfold watchJoypad
  split <;> rfl

theorem extraCycles_advanceSchedule (cpu : Cpu) :
    cpu.advanceSchedule.extraCycles = cpu.extraCycles := by
  unfold Cpu.advanceSchedule
  split <;> rfl

/-- No charge of a step is carried into the next one. -/
theorem extraCycles_step (s : Board β) : s.step.board.cpu.extraCycles = 0 := by
  rcases Bool.eq_false_or_eq_true s.cpu.halted with h | h
  · rw [step_of_halted h]
    rfl
  rcases Bool.eq_false_or_eq_true s.cpu.stopped with h' | h'
  · rw [step_of_stopped h h', extraCycles_watchJoypad]
    rfl
  · rw [step_of_awake h h']
    exact extraCycles_advanceSchedule _

/-! ### The interrupt logic -/

/-- Whether a pending interrupt is heard. -/
def hears (s : Board β) : Bool :=
  s.cpu.control.hears (pendingInterrupts s.bus)

/-- Whether an interrupt is taken when the processor is given the occasion. -/
def accepts (s : Board β) : Bool :=
  s.hears && s.cpu.ime

/-- The board in neither of the idle states. -/
def awoken {β : Type} (s : Board β) : Board β :=
  { s with cpu := { s.cpu with halted := false, stopped := false } }

theorem wake_of_not_hears {s : Board β} (h : s.hears = false) : s.wake = (false, s) := by
  unfold wake
  dsimp only
  by_cases he : (pendingInterrupts s.bus).isEmpty = true
  · rw [if_pos he]
  · have hdeaf : (s.cpu.stopped && !(pendingInterrupts s.bus).contains .joypad) = true := by
      simpa [hears, Control.hears, Cpu.control, he] using h
    rw [if_neg he, if_pos hdeaf]

theorem wake_of_hears {s : Board β} (h : s.hears = true) :
    s.wake = if s.cpu.ime then (true, { s with cpu := { s.cpu with stopped := false } })
      else (false, s.awoken) := by
  obtain ⟨he, hj⟩ := Bool.and_eq_true_iff.1 h
  have hdeaf : (s.cpu.stopped && !(pendingInterrupts s.bus).contains .joypad) = false := by
    simpa [Cpu.control, Decidable.imp_iff_not_or] using hj
  unfold wake
  dsimp only
  rw [if_neg (by simpa using he), if_neg (Bool.eq_false_iff.1 hdeaf)]
  rfl

/-- An interrupt is taken when one is heard and the master enable is set. -/
theorem handleInterrupts_of_accepts {s : Board β} (h : s.accepts = true) :
    s.handleInterrupts =
      (some dispatchCycles, dispatch { s with cpu := { s.cpu with stopped := false } }) := by
  obtain ⟨hh, hi⟩ := Bool.and_eq_true_iff.1 h
  rw [handleInterrupts, wake_of_hears hh, if_pos hi]

/-- An interrupt that is not taken may still end the idle states. -/
theorem handleInterrupts_of_not_accepts {s : Board β} (h : s.accepts = false) :
    s.handleInterrupts = (none, if s.hears then s.awoken else s) := by
  rcases Bool.eq_false_or_eq_true s.hears with hh | hh
  · have hi : s.cpu.ime = false := by simpa [accepts, hh] using h
    rw [handleInterrupts, wake_of_hears hh, if_neg (Bool.eq_false_iff.1 hi), if_pos hh]
  · rw [handleInterrupts, wake_of_not_hears hh, if_neg (Bool.eq_false_iff.1 hh)]

theorem handleInterrupts_fst (s : Board β) :
    s.handleInterrupts.1 = if s.accepts then some dispatchCycles else none := by
  rcases Bool.eq_false_or_eq_true s.accepts with h | h
  · rw [handleInterrupts_of_accepts h, if_pos h]
  · rw [handleInterrupts_of_not_accepts h, if_neg (Bool.eq_false_iff.1 h)]

/-- The surroundings after the upper byte of the program counter was pushed. -/
def upperPushed (s : Board β) : β :=
  write s.bus (s.cpu.regs.sp - 1) (hiByte s.cpu.regs.pc)

/-- The surroundings after the lower byte was pushed, too. -/
def lowerPushed (s : Board β) : β :=
  write s.upperPushed (s.cpu.regs.sp - 2) (loByte s.cpu.regs.pc)

/-- A dispatch with an interrupt selected between the two pushes. -/
theorem dispatch_of_selection?_some {s : Board β} {source : InterruptSource} {requests : UInt8}
    (h : selection? s.upperPushed = some (source, requests)) :
    s.dispatch =
      { cpu := { s.cpu with
          regs := { s.cpu.regs with pc := source.vector, sp := s.cpu.regs.sp - 2 }
          ime := false
          halted := false
          schedule := .idle }
        bus := write (note (.sm83Interrupt source source.vector s.cpu.regs.pc (s.cpu.regs.sp - 2))
          s.lowerPushed) requestAddress requests } := by
  rw [upperPushed] at h
  unfold dispatch
  dsimp only
  rw [h]
  rfl

/-- A dispatch that finds no interrupt left between the two pushes. -/
theorem dispatch_of_selection?_none {s : Board β} (h : selection? s.upperPushed = none) :
    s.dispatch =
      { cpu := { s.cpu with
          regs := { s.cpu.regs with pc := 0, sp := s.cpu.regs.sp - 2 }
          ime := false
          halted := false
          schedule := .idle }
        bus := s.lowerPushed } := by
  rw [upperPushed] at h
  unfold dispatch
  dsimp only
  rw [h]
  rfl

/-- Taking an interrupt clears the master enable, ends a halt and drops an `EI` in flight. The latch
of the `HALT` bug is left as it is. -/
theorem control_dispatch (s : Board β) :
    s.dispatch.cpu.control =
      { s.cpu.control with ime := false, halted := false, schedule := .idle } := by
  cases h : selection? s.upperPushed with
  | none => rw [dispatch_of_selection?_none h]; rfl
  | some selected => rw [dispatch_of_selection?_some h]; rfl

theorem extraCycles_handleInterrupts (s : Board β) :
    s.handleInterrupts.2.cpu.extraCycles = s.cpu.extraCycles := by
  rcases Bool.eq_false_or_eq_true s.accepts with h | h
  · rw [handleInterrupts_of_accepts h]
    unfold dispatch
    dsimp only
    split <;> rfl
  · rw [handleInterrupts_of_not_accepts h]
    dsimp only
    split <;> rfl

/-- The interrupt logic acts on the flip-flops as the control machine says. -/
theorem control_handleInterrupts (s : Board β) :
    s.handleInterrupts.2.cpu.control = s.cpu.control.interrupt (pendingInterrupts s.bus) := by
  have hhears : s.cpu.control.hears (pendingInterrupts s.bus) = s.hears := rfl
  have hime : s.cpu.control.ime = s.cpu.ime := rfl
  rw [Control.interrupt, hhears, hime]
  rcases Bool.eq_false_or_eq_true s.accepts with h | h
  · obtain ⟨hh, hi⟩ := Bool.and_eq_true_iff.1 h
    rw [handleInterrupts_of_accepts h, if_pos hh, if_pos hi, control_dispatch]
    rfl
  rw [handleInterrupts_of_not_accepts h]
  rcases Bool.eq_false_or_eq_true s.hears with hh | hh
  · have hi : s.cpu.ime = false := by simpa [accepts, hh] using h
    rw [if_pos hh, if_pos hh, if_neg (Bool.eq_false_iff.1 hi)]
    rfl
  · rw [if_neg (Bool.eq_false_iff.1 hh), if_neg (Bool.eq_false_iff.1 hh)]

/-- A stopped processor hears the joypad alone. -/
theorem hears_of_stopped {s : Board β} (hs : s.cpu.stopped = true) :
    s.hears = (pendingInterrupts s.bus).contains .joypad := by
  rw [hears, Control.hears, Cpu.control, hs, Bool.not_true, Bool.false_or,
    Bool.and_eq_right_iff_imp]
  intro hjoypad
  rw [Bool.not_eq_true', Interrupts.isEmpty, beq_eq_false_iff_ne]
  intro hbits
  rw [Interrupts.contains, hbits, UInt8.zero_and] at hjoypad
  exact absurd hjoypad (by decide)

/-- An interrupt that is heard ends the stop, taken or not. -/
theorem stopped_handleInterrupts_of_hears {s : Board β} (h : s.hears = true) :
    s.handleInterrupts.2.cpu.stopped = false := by
  have hcontrol := s.control_handleInterrupts
  have hhears : s.cpu.control.hears (pendingInterrupts s.bus) = true := h
  rw [Control.interrupt, if_pos hhears] at hcontrol
  refine (congrArg Control.stopped hcontrol).trans ?_
  split <;> rfl

end Board

end EightBit.Sm83
