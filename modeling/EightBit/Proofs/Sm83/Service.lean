import EightBit.Proofs.Sm83.Control
import EightBit.Proofs.Sm83.Selection

/-!
# Taking interrupts over plain memory

Over plain memory, with the stack clear of the interrupt registers, the interrupt logic does one of
two things. If an interrupt is due it enters the handler of the most urgent one. If none is due it
leaves memory and the registers alone, and at most ends a halt or a stop: any pending interrupt ends
a halt, with or without the master enable, while a stop is ended by the joypad only.

Interrupts are given by bits here, as programs see them: bit `k` of the pending byte belongs to the
handler at `0x40 + 8 * k`.

## Main definitions

* `Board.pendingBits`, `Board.InterruptDue`: the pending interrupts, and when one is taken.
* `EntersHandler`, `Declines`: the two outcomes.

## Main results

* `Board.entersHandler_dispatch`: what a dispatch does.
* `handleInterrupts_spec`: which of the two outcomes comes about.
-/

namespace EightBit.Sm83

namespace Board

/-- The interrupts that are both requested and enabled, one bit each. -/
def pendingBits (s : Board FlatBus) : UInt8 :=
  s.load enableAddress &&& s.load requestAddress &&& Interrupts.knownBits

/-- An interrupt is due: one is pending, the master enable is set, and the processor is not stopped
or the joypad is pending. -/
structure InterruptDue (s : Board FlatBus) : Prop where
  pending : s.pendingBits ≠ 0
  ime : s.cpu.ime = true
  audible : s.cpu.stopped = false ∨ hasBit s.pendingBits InterruptSource.joypad.index = true

/-- The two bytes below the stack pointer are clear of the interrupt registers. -/
structure StackClear (s : Board FlatBus) : Prop where
  upper_request : s.cpu.regs.sp - 1 ≠ requestAddress
  upper_enable : s.cpu.regs.sp - 1 ≠ enableAddress
  lower_request : s.cpu.regs.sp - 2 ≠ requestAddress
  lower_enable : s.cpu.regs.sp - 2 ≠ enableAddress

end Board

/-- The processor is in neither of the idle states. -/
def Cpu.IsAwake (cpu : Cpu) : Prop :=
  cpu.halted = false ∧ cpu.stopped = false

/-- From `s` to `t` the interrupt of bit `k` is taken. -/
structure EntersHandler (s t : Board FlatBus) (k : Nat) : Prop where
  /-- It is the most urgent one. -/
  lowest : IsLowestBit s.pendingBits k
  /-- The processor is about to execute the handler, with interrupts disabled. -/
  cpu : t.cpu = { s.cpu with
    regs := { s.cpu.regs with pc := 0x40 + 8 * UInt16.ofNat k, sp := s.cpu.regs.sp - 2 }
    ime := false
    halted := false
    stopped := false
    schedule := .idle }
  /-- Its request is withdrawn, and no other. -/
  requests : ∀ j, hasBit (t.load requestAddress) j = (hasBit (s.load requestAddress) j && j != k)
  /-- The program counter is on the stack, the low byte first. -/
  stackTop : t.stackTop = s.cpu.regs.pc
  elsewhere : ∀ a, a ≠ requestAddress → a ≠ s.cpu.regs.sp - 1 → a ≠ s.cpu.regs.sp - 2 →
    t.load a = s.load a

/-- From `s` to `t` no interrupt is taken, but the processor may be woken. -/
structure Declines (s t : Board FlatBus) : Prop where
  bus : t.bus = s.bus
  /-- Nothing but the idle states is touched. -/
  cpu : t.cpu = { s.cpu with halted := t.cpu.halted, stopped := t.cpu.stopped }
  /-- A processor that is not woken stays as it is. -/
  asleep : ¬t.cpu.IsAwake → t.cpu = s.cpu
  awake : s.cpu.IsAwake → t.cpu.IsAwake
  /-- Any pending interrupt ends a halt. -/
  halted : s.cpu.halted = true → s.cpu.stopped = false → (t.cpu.IsAwake ↔ s.pendingBits ≠ 0)
  /-- Only the joypad ends a stop. -/
  stopped : s.cpu.stopped = true →
    (t.cpu.IsAwake ↔ hasBit s.pendingBits InterruptSource.joypad.index = true)

namespace Board

variable {s : Board FlatBus}

/-! ### When an interrupt is taken -/

theorem pendingInterrupts_bus (s : Board FlatBus) :
    pendingInterrupts s.bus = ⟨s.pendingBits⟩ := rfl

/-- What the processor hears: anything pending, or when stopped the joypad. -/
theorem hears_iff (s : Board FlatBus) :
    s.hears = true ↔ s.pendingBits ≠ 0 ∧
      (s.cpu.stopped = false ∨ hasBit s.pendingBits InterruptSource.joypad.index = true) := by
  rw [hears, Control.hears, pendingInterrupts_bus, Interrupts.contains_eq_hasBit]
  simp [Interrupts.isEmpty, Cpu.control]

theorem accepts_iff (s : Board FlatBus) : s.accepts = true ↔ s.InterruptDue := by
  rw [accepts, Bool.and_eq_true, hears_iff]
  constructor
  · rintro ⟨⟨hpending, haudible⟩, hime⟩
    exact ⟨hpending, hime, haudible⟩
  · intro h
    exact ⟨⟨h.pending, h.audible⟩, h.ime⟩

/-! ### The dispatch -/

/-- A write that spares the interrupt registers does not change what is selected. -/
theorem selection?_write (bus : FlatBus) {a : UInt16} (v : UInt8) (hr : a ≠ requestAddress)
    (he : a ≠ enableAddress) : selection? (write bus a v) = selection? bus := by
  have hread : ∀ c, a ≠ c → read (write bus a v) c = read bus c := fun c hc =>
    Memory.read_write_of_ne _ _ hc
  have hpending : pendingInterrupts (write bus a v) = pendingInterrupts bus := by
    change Interrupts.ofBits (read (write bus a v) enableAddress &&&
      read (write bus a v) requestAddress) = _
    rw [hread _ hr, hread _ he]
    rfl
  rw [selection?, selection?, hpending, hread _ hr]

/-- With an interrupt pending the most urgent one is selected. -/
theorem exists_selection? (hp : s.pendingBits ≠ 0) :
    ∃ source : InterruptSource, IsLowestBit s.pendingBits source.index ∧
      selection? s.bus = some (source, s.load requestAddress &&& ~~~source.mask) := by
  obtain ⟨source, h⟩ := Interrupts.exists_highest? hp
  refine ⟨source, (Interrupts.highest?_eq_some_iff _ _).1 h, ?_⟩
  exact congrArg (Option.map _) h

/-- The two bytes below the stack pointer lie apart. -/
theorem lower_ne_upper (sp : UInt16) : sp - 2 ≠ sp - 1 := by
  grind

theorem lower_add_one (sp : UInt16) : sp - 2 + 1 = sp - 1 := by
  grind

/-- With an interrupt pending a dispatch enters the handler of the most urgent one. -/
theorem entersHandler_dispatch (hs : s.StackClear) (hp : s.pendingBits ≠ 0) :
    ∃ k, EntersHandler s (dispatch { s with cpu := { s.cpu with stopped := false } }) k := by
  obtain ⟨source, hlowest, hselected⟩ := exists_selection? hp
  rw [← selection?_write s.bus (hiByte s.cpu.regs.pc) hs.upper_request hs.upper_enable] at hselected
  have hdispatch := Board.dispatch_of_selection?_some
    (s := { s with cpu := { s.cpu with stopped := false } }) hselected
  have hcpu := congrArg Board.cpu hdispatch
  have hmemory := congrArg (fun t : Board FlatBus => t.bus.memory) hdispatch
  generalize dispatch { s with cpu := { s.cpu with stopped := false } } = t at hmemory hcpu ⊢
  have hmemory : t.bus.memory = ((s.bus.memory.write (s.cpu.regs.sp - 1)
      (hiByte s.cpu.regs.pc)).write (s.cpu.regs.sp - 2) (loByte s.cpu.regs.pc)).write
      requestAddress (s.load requestAddress &&& ~~~source.mask) := hmemory
  have hread (a : UInt16) : t.load a = _ := congrArg (Memory.read · a) hmemory
  simp only [Memory.read_write] at hread
  refine ⟨source.index, hlowest, ?_, fun j => ?_, ?_, fun a hr hu hl => ?_⟩
  · rw [hcpu, source.vector_eq]
  · rw [hread, if_pos rfl, hasBit_and_not, InterruptSource.hasBit_mask]
    rfl
  · have hsp : t.cpu.regs.sp = s.cpu.regs.sp - 2 := by rw [hcpu]
    have hlower : t.load (s.cpu.regs.sp - 2) = loByte s.cpu.regs.pc := by
      rw [hread, if_neg hs.lower_request.symm, if_pos rfl]
    have hupper : t.load (s.cpu.regs.sp - 1) = hiByte s.cpu.regs.pc := by
      rw [hread, if_neg hs.upper_request.symm, if_neg (lower_ne_upper _), if_pos rfl]
    calc t.stackTop
        = word (t.load (s.cpu.regs.sp - 2 + 1)) (t.load (s.cpu.regs.sp - 2)) := by
          rw [← hsp]; rfl
      _ = s.cpu.regs.pc := by
          rw [lower_add_one, hlower, hupper, word_hiByte_loByte]
  · rw [hread, if_neg hr.symm, if_neg hl.symm, if_neg hu.symm]
    rfl

/-! ### Waking -/

/-- Waking a processor that hears an interrupt does no more than that. -/
theorem declines_wake (s : Board FlatBus) : Declines s (if s.hears then s.awoken else s) := by
  have hhears := s.hears_iff
  rcases Bool.eq_false_or_eq_true s.hears with h | h
  · obtain ⟨hp, ha⟩ := hhears.1 h
    have hawake : s.awoken.cpu.IsAwake := ⟨rfl, rfl⟩
    rw [if_pos h]
    exact {
      bus := rfl
      cpu := rfl
      asleep := fun hn => absurd hawake hn
      awake := fun _ => hawake
      halted := fun _ _ => ⟨fun _ => hp, fun _ => hawake⟩
      stopped := fun hs => ⟨fun _ => ha.resolve_left (by simp [hs]), fun _ => hawake⟩ }
  · rw [if_neg (Bool.eq_false_iff.1 h)]
    rw [h] at hhears
    have hdeaf := (not_congr hhears).1 Bool.false_ne_true
    exact {
      bus := rfl
      cpu := rfl
      asleep := fun _ => rfl
      awake := id
      halted := fun hh hs =>
        ⟨fun hn => absurd hh (by simp [hn.1]), fun hp => absurd ⟨hp, .inl hs⟩ hdeaf⟩
      stopped := fun hs => ⟨fun hn => absurd hs (by simp [hn.2]), fun hj =>
        absurd ⟨ne_zero_of_hasBit hj, .inr hj⟩ hdeaf⟩ }

end Board

/-- **The interrupt logic over plain memory.** With the stack clear of the interrupt registers, an
interrupt that is due costs 20 cycles and enters the handler of the most urgent source; with none
due nothing happens but that the processor may be woken. -/
theorem handleInterrupts_spec (s : Board FlatBus) (hs : s.StackClear) :
    (s.InterruptDue →
        s.handleInterrupts.1 = some 20 ∧ ∃ k, EntersHandler s s.handleInterrupts.2 k) ∧
      (¬s.InterruptDue → s.handleInterrupts.1 = none ∧ Declines s s.handleInterrupts.2) := by
  constructor
  · intro hdue
    rw [Board.handleInterrupts_of_accepts (s.accepts_iff.2 hdue)]
    exact ⟨rfl, Board.entersHandler_dispatch hs hdue.pending⟩
  · intro hdue
    have haccepts : s.accepts = false := by rwa [← Bool.not_eq_true, s.accepts_iff]
    rw [Board.handleInterrupts_of_not_accepts haccepts]
    exact ⟨rfl, s.declines_wake⟩

/-- Memory with the timer and the link port requested, and every interrupt enabled. -/
def timerMemory : Memory :=
  (Memory.blank.write requestAddress 0x0C).write enableAddress 0x1F

/-- A halted board with the timer and the link port pending. -/
def timerBoard : Board FlatBus where
  cpu := { Cpu.create .dmg with ime := true, halted := true }
  bus := .ofMemory timerMemory .silent

theorem pendingBits_timerBoard : timerBoard.pendingBits = 0x0C := by
  have hload (a : UInt16) : timerBoard.load a = timerMemory.read a := rfl
  rw [Board.pendingBits, hload, hload, timerMemory, Memory.read_write_self,
    Memory.read_write_of_ne _ _ (by decide), Memory.read_write_self]
  rfl

/-- The timer is served before the link port. -/
theorem entersHandler_timerBoard :
    timerBoard.StackClear ∧ timerBoard.InterruptDue ∧
      timerBoard.handleInterrupts.1 = some 20 ∧
        EntersHandler timerBoard timerBoard.handleInterrupts.2 2 := by
  have hclear : timerBoard.StackClear := ⟨by decide, by decide, by decide, by decide⟩
  have hdue : timerBoard.InterruptDue :=
    ⟨by rw [pendingBits_timerBoard]; decide, rfl, .inl rfl⟩
  obtain ⟨hcycles, k, hk⟩ := (handleInterrupts_spec timerBoard hclear).1 hdue
  have hlowest : IsLowestBit timerBoard.pendingBits 2 := by
    rw [pendingBits_timerBoard]
    exact ⟨by decide, by decide⟩
  exact ⟨hclear, hdue, hcycles, hlowest.unique hk.lowest ▸ hk⟩

end EightBit.Sm83
