import EightBit.Proofs.Sm83.Fetch
import EightBit.Proofs.Sm83.Run

/-!
# The latch of the `HALT` bug when an interrupt is taken

The latch is set by a `HALT` that finds interrupts disabled and one of them pending, and released by
the next fetch. An interrupt can only be taken in between if the master enable is set by the end of
that very `HALT`, which happens when the `HALT` is the instruction after an `EI`. Taking the
interrupt leaves the latch alone, so the fetch that it holds back is then the first one of the
handler: its opcode is read a second time, in the place of what follows it.

## Main definitions

* `Board.HaltsInShadow`: a `HALT` right after an `EI`, with an interrupt pending.
* `EndsInShadowedHalt`: the last instruction of a run is such a `HALT`.
* `Board.FetchesInOrder`, `Board.RepeatsOpcode`: the two ways in which an instruction may be read.

## Main results

* `Control.Settled.step_latched_iff`: the one step that ends with the latch set and interrupts
  enabled.
* `fetchesInOrder_handler_iff`: exactly which runs enter a handler with the latch clear.
* `latch_survives_dispatch`: there are others.
-/

namespace EightBit.Sm83

namespace Control

/-- Only `HALT` acts on the latch. -/
theorem execute_haltBug_of_ne {i : Instruction} (hi : i ≠ .halt) (k : Control) (pending : Bool) :
    (k.execute pending i).haltBug = k.haltBug := by
  unfold execute
  split
  next => rfl
  next => exact absurd rfl hi
  next => rfl
  next => split <;> rfl
  next => rfl
  next => rfl

/-- An instruction latches the `HALT` bug exactly if it is a `HALT` that finds interrupts disabled
and one of them pending. -/
theorem execute_haltBug_iff (k : Control) (pending : Bool) (i : Instruction) :
    (k.release.execute pending i).haltBug = true ↔
      i = .halt ∧ pending = true ∧ k.ime = false := by
  by_cases hi : i = .halt
  · subst hi
    cases hk : k.ime <;> cases pending <;> simp [execute, release, hk]
  · simp [execute_haltBug_of_ne hi, release, hi]

theorem advance_haltBug (k : Control) : k.advance.haltBug = k.haltBug := by
  unfold advance
  split <;> rfl

/-- The end of an instruction sets the master enable if an `EI` has come that far. -/
theorem advance_ime (k : Control) : k.advance.ime = (k.ime || k.schedule == .enabling) := by
  unfold advance
  split <;> simp_all

/-- A step ends with the latch set and interrupts enabled exactly if it executes a `HALT` in the
shadow of an `EI` with an interrupt pending. -/
theorem Settled.step_latched_iff {k : Control} (hk : k.Settled) (joypad pending : Bool)
    (i : Instruction) :
    ((k.step joypad pending i).haltBug = true ∧ (k.step joypad pending i).ime = true) ↔
      k.schedule = .enabling ∧ i = .halt ∧ pending = true := by
  constructor
  · rintro ⟨hl, hime⟩
    -- An idle processor does not have the latch set, and waiting does not set it.
    rcases Bool.eq_false_or_eq_true k.halted with hh | hh
    · rw [step_of_halted hh] at hl
      exact absurd hh (by simp [hk.latched hl])
    rcases Bool.eq_false_or_eq_true k.stopped with hs | hs
    · rw [step_of_stopped hh hs] at hl
      exact absurd hs (by simp [hk.latched hl])
    rw [step_of_awake hh hs] at hl hime
    rw [advance_haltBug] at hl
    obtain ⟨rfl, rfl, hoff⟩ := (execute_haltBug_iff k pending i).1 hl
    refine ⟨hk.schedule.resolve_left fun hidle => ?_, rfl, rfl⟩
    rw [advance_ime] at hime
    simp [execute, release, hoff, hidle] at hime
  · rintro ⟨he, rfl, rfl⟩
    obtain ⟨hoff, hh, hs⟩ := hk.enabling he
    rw [step_of_awake hh hs, advance_haltBug, advance_ime]
    refine ⟨(execute_haltBug_iff k true .halt).2 ⟨rfl, rfl, hoff⟩, ?_⟩
    simp [execute, release, hoff, he]

theorem interrupt_haltBug (k : Control) (pending : Interrupts) :
    (k.interrupt pending).haltBug = k.haltBug := by
  unfold interrupt
  split
  · split <;> rfl
  · rfl

/-- The interrupt logic never sets the master enable. -/
theorem ime_of_interrupt {k : Control} {pending : Interrupts}
    (h : (k.interrupt pending).ime = true) : k.ime = true := by
  unfold interrupt at h
  split at h
  · split at h
    · assumption
    · exact h
  · exact h

end Control

variable {β : Type} [Bus β]

/-- The next step executes a `HALT` right after an `EI`, with an interrupt pending. -/
structure Board.HaltsInShadow (s : Board β) : Prop where
  enabling : s.cpu.schedule = .enabling
  current : s.current = .halt
  pending : s.pending = true

/-- Whether a call leaves the processor where its last instruction has left it. -/
def Move.isQuiet {β : Type} : Move β → Bool
  | .step | .reset => false
  | .interrupt | .drive _ => true

/-- The last step of a run is a `HALT` in the shadow of an `EI`, with an interrupt pending. -/
def EndsInShadowedHalt (s : Board β) (ms : List (Move β)) : Prop :=
  ∃ before after, ms = before ++ .step :: after ∧ (∀ m ∈ after, m.isQuiet = true) ∧
    (s.run before).HaltsInShadow

namespace Board

/-- The opcode is followed by the byte after it. -/
structure FetchesInOrder (t : Board β) : Prop where
  haltBug : t.cpu.haltBug = false
  pc : t.skip.cpu.regs.pc = t.cpu.regs.pc + 1
  operand : t.skip.nextByte = t.load (t.cpu.regs.pc + 1)

/-- The opcode is followed by itself. -/
structure RepeatsOpcode (t : Board β) : Prop where
  haltBug : t.cpu.haltBug = true
  pc : t.skip.cpu.regs.pc = t.cpu.regs.pc
  operand : t.skip.nextByte = t.nextByte

theorem fetchesInOrder_iff (t : Board β) : t.FetchesInOrder ↔ t.cpu.haltBug = false := by
  refine ⟨fun h => h.haltBug, fun h => ?_⟩
  have hpc : t.skip.cpu.regs.pc = t.cpu.regs.pc + 1 := by simp [pc_skip, h]
  exact ⟨h, hpc, by rw [nextByte, load, bus_skip, hpc, load]⟩

theorem repeatsOpcode_iff (t : Board β) : t.RepeatsOpcode ↔ t.cpu.haltBug = true := by
  refine ⟨fun h => h.haltBug, fun h => ?_⟩
  have hpc : t.skip.cpu.regs.pc = t.cpu.regs.pc := by simp [pc_skip, h]
  exact ⟨h, hpc, by rw [nextByte, load, bus_skip, hpc, nextByte, load]⟩

end Board

/-! ### Runs -/

/-- Taking an interrupt keeps the latch. -/
theorem haltBug_handleInterrupts (s : Board β) :
    s.handleInterrupts.2.cpu.haltBug = s.cpu.haltBug :=
  (congrArg Control.haltBug s.control_handleInterrupts).trans (Control.interrupt_haltBug _ _)

/-- A call that leaves the processor where its last instruction has left it keeps the latch. -/
theorem haltBug_apply_of_isQuiet (s : Board β) {m : Move β} (hm : m.isQuiet = true) :
    (s.apply m).cpu.haltBug = s.cpu.haltBug := by
  cases m with
  | step => cases hm
  | reset => cases hm
  | interrupt => exact haltBug_handleInterrupts s
  | drive f => rfl

theorem haltBug_run_of_isQuiet (s : Board β) {ms : List (Move β)}
    (hms : ∀ m ∈ ms, m.isQuiet = true) : (s.run ms).cpu.haltBug = s.cpu.haltBug := by
  induction ms generalizing s with
  | nil => rfl
  | cons m ms ih =>
    rw [Board.run, ih _ fun n hn => hms n (List.mem_cons_of_mem m hn),
      haltBug_apply_of_isQuiet s (hms m List.mem_cons_self)]

/-- A step leaves the latch set with interrupts enabled exactly if it executes a `HALT` in the
shadow of an `EI`. -/
theorem step_latched_iff {s : Board β} (hs : s.cpu.Settled) :
    (s.step.board.cpu.haltBug = true ∧ s.step.board.cpu.ime = true) ↔ s.HaltsInShadow := by
  have hk := s.control_step
  have hbug : s.step.board.cpu.haltBug = _ := congrArg Control.haltBug hk
  have hime : s.step.board.cpu.ime = _ := congrArg Control.ime hk
  rw [hbug, hime, hs.control.step_latched_iff]
  exact ⟨fun ⟨he, hi, hp⟩ => ⟨he, hi, hp⟩, fun ⟨he, hi, hp⟩ => ⟨he, hi, hp⟩⟩

/-- A run that ends with the latch set and interrupts enabled ends in a `HALT` in the shadow of an
`EI`, unless it has begun so and executed nothing. -/
theorem endsInShadowedHalt_or_isQuiet {s : Board β} (hs : s.cpu.Settled) {ms : List (Move β)}
    (hl : (s.run ms).cpu.haltBug = true) (hi : (s.run ms).cpu.ime = true) :
    EndsInShadowedHalt s ms ∨
      (∀ m ∈ ms, m.isQuiet = true) ∧ s.cpu.haltBug = true ∧ s.cpu.ime = true := by
  induction ms generalizing s with
  | nil => exact .inr ⟨by simp, hl, hi⟩
  | cons m ms ih =>
    rcases ih (hs.apply m) hl hi with ⟨before, after, hms, hafter, hhalt⟩ | ⟨hquiet, hl', hi'⟩
    · exact .inl ⟨m :: before, after, by rw [hms, List.cons_append], hafter, hhalt⟩
    cases m with
    | step => exact .inl ⟨[], ms, rfl, hquiet, (step_latched_iff hs).1 ⟨hl', hi'⟩⟩
    | reset => cases hl'
    | interrupt =>
      refine .inr ⟨List.forall_mem_cons.2 ⟨rfl, hquiet⟩, ?_, ?_⟩
      · rwa [haltBug_apply_of_isQuiet s rfl] at hl'
      · exact Control.ime_of_interrupt
          ((congrArg Control.ime s.control_handleInterrupts).symm.trans hi')
    | drive f => exact .inr ⟨List.forall_mem_cons.2 ⟨rfl, hquiet⟩, hl', hi'⟩

/-- After a run that ends in a `HALT` in the shadow of an `EI` the latch is set. -/
theorem EndsInShadowedHalt.haltBug {s : Board β} (hs : s.cpu.Settled) {ms : List (Move β)}
    (h : EndsInShadowedHalt s ms) : (s.run ms).cpu.haltBug = true := by
  obtain ⟨before, after, rfl, hafter, hhalt⟩ := h
  rw [Board.run_append, Board.run, haltBug_run_of_isQuiet _ hafter]
  exact ((step_latched_iff (hs.run before)).2 hhalt).1

/-! ### A program that enters a handler with the latch set -/

section EiHalt

variable {s : Board β} (hk : s.cpu.control = ⟨false, false, false, false, .idle⟩)
  (hei : s.nextByte = 0xFB) (hhalt : s.load (s.cpu.regs.pc + 1) = 0x76) (hp : s.pending = true)

include hk hei

/-- `EI`, executed with interrupts disabled and nothing in flight. -/
theorem step_of_ei :
    s.StepsTo ⟨false, false, false, false, .enabling⟩
      { s.cpu.regs with pc := s.cpu.regs.pc + 1 } := by
  have hstep := (Board.Executes.of_control hk).step_ei hei
  rwa [hk] at hstep

include hhalt

theorem nextByte_step_of_ei : s.step.board.nextByte = 0x76 := by
  have hstep := step_of_ei hk hei
  rw [Board.nextByte, Board.load, hstep.regs, hstep.bus]
  exact hhalt

/-- The `HALT` leaves the surroundings as they are. -/
theorem bus_step_step_of_ei_halt : s.step.board.step.board.bus = s.bus := by
  have hstep := step_of_ei hk hei
  rw [← hstep.bus]
  exact ((Board.Executes.of_control hstep.control).step_halt (nextByte_step_of_ei hk hei hhalt)).bus

include hp

theorem haltsInShadow_step_of_ei_halt : s.step.board.HaltsInShadow where
  enabling := congrArg Control.schedule (step_of_ei hk hei).control
  current := Board.current_of_opcode (by rw [nextByte_step_of_ei hk hei hhalt]; rfl) (by simp)
  pending := by
    rw [Board.pending, (step_of_ei hk hei).bus]
    exact hp

/-- After `EI`, `HALT` with an interrupt pending the interrupt is taken with the latch set. -/
theorem accepts_of_ei_halt (hs : s.cpu.Settled) :
    (s.run [.step, .step]).accepts = true ∧ (s.run [.step, .step]).cpu.haltBug = true := by
  have hlatched := (step_latched_iff hs.step).2 (haltsInShadow_step_of_ei_halt hk hei hhalt hp)
  have hstopped : s.step.board.step.board.cpu.stopped = false :=
    (hs.step.step.control.latched hlatched.1).2
  have hhears : s.step.board.step.board.hears = true := by
    have hempty : (pendingInterrupts s.bus).isEmpty = false := by simpa [Board.pending] using hp
    simp [Board.hears, Control.hears, Cpu.control, bus_step_step_of_ei_halt hk hei hhalt, hempty,
      hstopped]
  exact ⟨Bool.and_eq_true_iff.2 ⟨hhears, hlatched.2⟩, hlatched.1⟩

end EiHalt

/-- Memory with `EI`, `HALT` where the boot program leaves the processor, and the vertical blank
requested and enabled. -/
def eiHaltMemory : Memory :=
  (((Memory.blank.write 0x0100 0xFB).write 0x0101 0x76).write requestAddress 0x01).write
    enableAddress 0x01

/-- The board that is about to execute `EI`, `HALT`. -/
def eiHaltBoard : Board FlatBus :=
  .powerOn .dmg (.ofMemory eiHaltMemory .silent)

theorem nextByte_eiHaltBoard : eiHaltBoard.nextByte = 0xFB := by
  change eiHaltMemory.read 0x0100 = 0xFB
  simp [eiHaltMemory, Memory.read_write, requestAddress, enableAddress]

theorem load_eiHaltBoard : eiHaltBoard.load (eiHaltBoard.cpu.regs.pc + 1) = 0x76 := by
  change eiHaltMemory.read 0x0101 = 0x76
  simp [eiHaltMemory, Memory.read_write, requestAddress, enableAddress]

theorem pending_eiHaltBoard : eiHaltBoard.pending = true := by
  change (!(Interrupts.ofBits (eiHaltMemory.read enableAddress &&&
    eiHaltMemory.read requestAddress)).isEmpty) = true
  simp only [eiHaltMemory, Memory.read_write, requestAddress, enableAddress]
  decide

theorem accepts_eiHaltBoard :
    (eiHaltBoard.run [.step, .step]).accepts = true ∧
      (eiHaltBoard.run [.step, .step]).cpu.haltBug = true :=
  accepts_of_ei_halt rfl nextByte_eiHaltBoard load_eiHaltBoard pending_eiHaltBoard
    (Cpu.settled_create .dmg)

theorem dispatches_eiHaltBoard :
    (eiHaltBoard.run [.step, .step]).handleInterrupts.1 = some dispatchCycles := by
  rw [Board.handleInterrupts_fst, accepts_eiHaltBoard.1]
  rfl

/-! ### Entering a handler -/

/-- **The first instruction of a handler.** When an interrupt is taken in a run from power-on, the
handler's opcode is followed by the byte after it, unless the last instruction of the run is a
`HALT` in the shadow of an `EI` that found an interrupt pending; then it is followed by itself. -/
theorem fetchesInOrder_handler_iff (boot : BootState) (bus : β) (ms : List (Move β)) {n : Nat}
    (h : ((Board.powerOn boot bus).run ms).handleInterrupts.1 = some n) :
    (((Board.powerOn boot bus).run ms).handleInterrupts.2.FetchesInOrder ↔
        ¬EndsInShadowedHalt (Board.powerOn boot bus) ms) ∧
      (((Board.powerOn boot bus).run ms).handleInterrupts.2.RepeatsOpcode ↔
        EndsInShadowedHalt (Board.powerOn boot bus) ms) := by
  -- Taking an interrupt requires the master enable.
  have hi : ((Board.powerOn boot bus).run ms).cpu.ime = true := by
    rw [Board.handleInterrupts_fst] at h
    split at h
    next ha => exact (Bool.and_eq_true_iff.1 ha).2
    next => cases h
  have hiff : ((Board.powerOn boot bus).run ms).cpu.haltBug = true ↔
      EndsInShadowedHalt (Board.powerOn boot bus) ms := by
    refine ⟨fun hl => ?_, fun hend => hend.haltBug (Cpu.settled_create boot)⟩
    exact (endsInShadowedHalt_or_isQuiet (Cpu.settled_create boot) hl hi).resolve_right
      fun ⟨_, hl', _⟩ => Bool.false_ne_true hl'
  rw [Board.fetchesInOrder_iff, Board.repeatsOpcode_iff, haltBug_handleInterrupts, ← hiff,
    Bool.not_eq_true]
  exact ⟨Iff.rfl, Iff.rfl⟩

/-- The handler entered after `EI`, `HALT` with the vertical blank pending reads its
opcode twice. -/
theorem repeatsOpcode_handler_eiHalt :
    (eiHaltBoard.run [.step, .step]).handleInterrupts.1 = some dispatchCycles ∧
      (eiHaltBoard.run [.step, .step]).handleInterrupts.2.RepeatsOpcode := by
  have hend : EndsInShadowedHalt eiHaltBoard [.step, .step] :=
    ⟨[.step], [], rfl, by simp, haltsInShadow_step_of_ei_halt rfl nextByte_eiHaltBoard
      load_eiHaltBoard pending_eiHaltBoard⟩
  exact ⟨dispatches_eiHaltBoard, (fetchesInOrder_handler_iff .dmg _ [.step, .step]
    dispatches_eiHaltBoard).2.2 hend⟩

/-- An interrupt may be taken with the latch set. -/
theorem latch_survives_dispatch :
    ¬∀ (boot : BootState) (bus : FlatBus) (ms : List (Move FlatBus)),
      (∀ m ∈ ms, m = .step ∨ m = .interrupt) →
      ((Board.powerOn boot bus).run ms).handleInterrupts.1 ≠ none →
      ((Board.powerOn boot bus).run ms).handleInterrupts.2.cpu.haltBug = false := by
  intro h
  have htaken : (eiHaltBoard.run [.step, .step]).handleInterrupts.1 ≠ none := by
    rw [dispatches_eiHaltBoard]
    exact Option.some_ne_none _
  have hclear := h .dmg (.ofMemory eiHaltMemory .silent) [.step, .step] (by simp)
  rw [show Board.powerOn .dmg (.ofMemory eiHaltMemory .silent) = eiHaltBoard from rfl] at hclear
  rw [haltBug_handleInterrupts, accepts_eiHaltBoard.2] at hclear
  exact Bool.false_ne_true (hclear htaken).symm

end EightBit.Sm83
