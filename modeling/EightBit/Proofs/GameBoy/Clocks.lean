import EightBit.Noise.Source
import EightBit.Proofs.GameBoy.Machine

/-!
# The devices keep the processor's time

Every cycle that the machine reports has passed for the timer and the display exactly once, whatever
program runs: of all instructions, idle steps and interrupts none is reported without being passed
on or passed on without being reported. As long as the program does not interfere, which it does by
stopping the clock, by writing the divider and by switching the display off, the number of cycles
reported since power-on therefore tells the hidden counter of the timer, the position of the display
and the number of vertical blanks.

## Main definitions

* `Bus.Clocked`: the devices after a number of T-cycles since power-on.
* `Machine.KeepsTime`: the next step does not interfere.
* `Machine.InTime`: the devices against the cycles that the machine has counted.

## Main results

* `Machine.clocked_step`: a step that does not interfere.
* `Machine.inTime_run`: runs from power-on.
-/

namespace EightBit.GameBoy

open Sm83 (Board Access enableAddress pendingInterrupts)

/-! ### The hidden counter of the timer -/

namespace Timer

variable (t : Timer)

@[simp] theorem counter_countEdge (before : Bool) : (t.countEdge before).counter = t.counter := by
  unfold countEdge
  split <;> rfl

@[simp] theorem counter_settle : t.settle.counter = t.counter := by
  unfold settle
  split <;> rfl

@[simp] theorem counter_tick : t.tick.counter = t.counter + 1 := by
  rw [tick, counter_countEdge, counter_settle]

theorem toNat_counter_iterate_tick (n : Nat) :
    (tick^[n] t).counter.toNat = (t.counter.toNat + n) % 65536 := by
  induction n generalizing t with
  | zero => exact (Nat.mod_eq_of_lt t.counter.toNat_lt).symm
  | succ n ih =>
    have hone : (t.counter + 1).toNat = (t.counter.toNat + 1) % 65536 := UInt16.toNat_add _ _
    rw [Function.iterate_succ_apply, ih, counter_tick, hone]
    omega

/-- Of the writes only that to the divider reaches the hidden counter. -/
theorem counter_written (v : UInt8) {target : Target} (h : target ≠ .divider) :
    (t.written v target).counter = t.counter := by
  cases target with
  | divider => exact absurd rfl h
  | timerControl => exact counter_countEdge _ _
  | _ => rfl

end Timer

/-- Writes leave the position of the display alone unless they switch it off. -/
theorem Lcd.Clocked.written {t : Nat} {d : Lcd} (h : d.Clocked t) (v : UInt8) {target : Target}
    (hon : target = .lcdControl → hasBit v 7 = true) : (d.written v target).Clocked t := by
  cases target with
  | lcdControl =>
    have hstays : switchedOn v = true := (and_mask_bne_zero v (by decide)).trans (hon rfl)
    change (d.writeControl v).Clocked t
    rw [writeControl, hstays, Bool.not_true, Bool.and_false, if_neg Bool.false_ne_true]
    exact ⟨hstays, h.dots, h.line, h.frames⟩
  | lcdStatus | lcdCompare => exact ⟨h.on, h.dots, h.line, h.frames⟩
  | _ => exact h

namespace Bus

/-- The devices have been running for `t` T-cycles since power-on, the display without a break. -/
structure Clocked (t : Nat) (bus : Bus) : Prop where
  consistent : bus.Consistent
  counter : bus.timer.counter.toNat = (0xABCC + t) % 65536
  lcd : bus.lcd.Clocked t

theorem clocked_powerOn (ram : RamBytes) (journal : Journal) : (powerOn ram journal).Clocked 0 where
  consistent := consistent_powerOn ram journal
  counter := rfl
  lcd := by
    rw [lcd_powerOn]
    exact ⟨by decide, rfl, rfl, rfl⟩

namespace Clocked

variable {t : Nat} {bus : Bus} (h : bus.Clocked t)

include h

theorem note (n : Notice) : (bus.note n).Clocked t where
  consistent := h.consistent.note n
  counter := h.counter
  lcd := h.lcd

theorem insert (image : List UInt8) : (bus.insert image).Clocked t where
  consistent := h.consistent.insert image
  counter := by
    rw [insert_eq]
    exact h.counter
  lcd := by
    rw [lcd_insert]
    exact h.lcd

theorem writeByte {a : UInt16} {v : UInt8} (hdivider : a ≠ dividerAddress)
    (hon : a = lcdControlAddress → hasBit v 7 = true) : (bus.writeByte a v).Clocked t where
  consistent := h.consistent.writeByte a v
  counter := by
    have htarget : Target.ofAddress a ≠ .divider := fun ht =>
      hdivider (Target.eq_of_register? (by rw [ht]; rfl))
    rw [timer_writeByte, Timer.counter_written _ _ htarget, h.counter]
  lcd := by
    rw [lcd_writeByte]
    exact h.lcd.written v fun ht => hon (Target.eq_of_register? (by rw [ht]; rfl))

theorem passTime (n : Nat) : (bus.passTime n).Clocked (t + n) where
  consistent := h.consistent.passTime n
  counter := by
    rw [timer_passTime, Timer.toNat_counter_iterate_tick, h.counter, Nat.mod_add_mod, Nat.add_assoc]
  lcd := by
    rw [lcd_passTime]
    exact h.lcd.iterate_dot n

end Clocked

end Bus

namespace Machine

variable (m : Machine)

/-! ### Steps that do not interfere -/

/-- The next step does not stop the processor, writes the divider nowhere, and never writes a value
that switches the display off. -/
structure KeepsTime : Prop where
  running : m.board.step.board.cpu.stopped = false
  divider : ∀ v, .write dividerAddress v ∉ m.accesses
  display : ∀ v, .write lcdControlAddress v ∈ m.accesses → hasBit v 7 = true

variable {m}

/-- A step that does not interfere moves the devices on by the cycles it reports. -/
theorem clocked_step (hm : m.KeepsTime) (h : m.board.bus.Clocked m.totalCycles) :
    m.step.2.board.bus.Clocked m.step.2.totalCycles := by
  rw [totalCycles_step, ← elapsed_of_running hm.running]
  refine step_induction (P := Bus.Clocked) h ?_ (fun n _ _ h => h.note n)
    fun n _ _ h => h.passTime n
  intro x hx t bus hbus
  cases x with
  | note n => exact hbus.note n
  | write a v =>
    refine hbus.writeByte ?_ ?_
    · rintro rfl
      exact hm.divider v hx
    · rintro rfl
      exact hm.display v hx

/-! ### Runs from power-on -/

/-- The machine after power-on, with a cartridge if it fits. -/
def powerOn [NoiseSource] (config : Config) (journal : Journal) (image : List UInt8) : Machine :=
  (create config journal).insert image

theorem totalCycles_powerOn [NoiseSource] (config : Config) (journal : Journal)
    (image : List UInt8) : (powerOn config journal image).totalCycles = 0 := by
  rw [powerOn, insert_eq]
  rfl

theorem clocked_powerOn [NoiseSource] (config : Config) (journal : Journal) (image : List UInt8) :
    (powerOn config journal image).board.bus.Clocked 0 := by
  have hinsert : ((create config journal).board.bus.insert image).Clocked 0 :=
    (Bus.clocked_powerOn config.ram.bytes journal).insert image
  rcases bus_insert_eq_or (create config journal) image with h | ⟨n, h⟩ <;> rw [powerOn, h]
  · exact hinsert
  · exact hinsert.note n

variable (m) in
/-- The devices are where the cycles counted say: the hidden counter of the timer with the divider,
the position of the display with its line, and the vertical blanks. -/
structure InTime : Prop where
  counter : m.board.bus.timer.counter.toNat = (0xABCC + m.totalCycles) % 65536
  divider : m.board.bus.peek dividerAddress = hiByte m.board.bus.timer.counter
  dots : m.board.bus.lcdDots = m.totalCycles % 70224
  line : (m.board.bus.peek lcdLineAddress).toNat = m.totalCycles % 70224 / 456
  frames : m.board.bus.frames = (m.totalCycles + 4560) / 70224

theorem inTime_of_clocked (h : m.board.bus.Clocked m.totalCycles) : m.InTime where
  counter := h.counter
  divider := h.consistent.timer.divider
  dots := h.lcd.dots
  line := h.lcd.line
  frames := h.lcd.frames

/-- Whatever program runs, as long as none of its steps interferes, the cycles counted since
power-on are those that the steps report, and tell where the devices are. -/
theorem inTime_run [NoiseSource] (config : Config) (journal : Journal) (image : List UInt8)
    (cs : List Call) (h : ∀ m ∈ (powerOn config journal image).starts cs, m.KeepsTime) :
    ((powerOn config journal image).run cs).2.totalCycles =
        stepCycles ((powerOn config journal image).starts cs) ∧
      ((powerOn config journal image).run cs).2.InTime := by
  have hclocked : (powerOn config journal image).board.bus.Clocked
      (powerOn config journal image).totalCycles := by
    rw [totalCycles_powerOn]
    exact clocked_powerOn config journal image
  refine ⟨?_, inTime_of_clocked ?_⟩
  · rw [totalCycles_run, run_fst, totalCycles_powerOn, Nat.zero_add]
  · exact run_induction (P := fun m => m.board.bus.Clocked m.totalCycles) hclocked
      (fun _ _ h => h) cs fun m hm => clocked_step (h m hm)

/-! ### A program that halts at once -/

variable (m) in
/-- The processor is at rest, and stays so because no interrupt is enabled. -/
structure Rests : Prop where
  board : m.board.Rests
  disabled : m.board.bus.peek enableAddress = 0

theorem isEmpty_of_disabled {bus : Bus} (h : bus.peek enableAddress = 0) :
    (pendingInterrupts bus).isEmpty = true := by
  change ((bus.peek enableAddress &&& _) &&& _ == 0) = true
  rw [h, UInt8.zero_and, UInt8.zero_and]
  rfl

theorem Rests.disabled_settled (h : m.Rests) : m.settled.bus.peek enableAddress = 0 := by
  have hstep : m.board.step.board.bus.peek enableAddress = 0 := by
    rw [h.board.bus_step]
    exact h.disabled
  have hobserved : (observe m.config m.trace m.board.step.board m.board.step.executed).2.bus.peek
      enableAddress = 0 :=
    bus_observe_induction (P := fun bus => bus.peek enableAddress = 0) _ _ _ _ hstep fun _ => hstep
  rw [settled, settle]
  split
  · exact hobserved
  · exact (Bus.peek_passTime_of_not_mem _ _ (by decide)).trans hobserved

theorem Rests.settled (h : m.Rests) : m.settled.Rests := by
  obtain ⟨hhalted, hstopped⟩ := h.board.control_step
  refine ⟨?_, .inl ?_, isEmpty_of_disabled h.disabled_settled⟩ <;> rw [cpu_settled]
  · exact hstopped
  · exact hhalted

/-- A machine at rest stays at rest. -/
theorem Rests.step (h : m.Rests) : m.step.2.Rests := by
  have hcpu : m.step.2.board.cpu = m.settled.cpu := by
    rw [cpu_step, h.settled.handleInterrupts_eq]
  have hbus : m.step.2.board.bus = m.settled.bus := by
    rw [bus_step, h.settled.handleInterrupts_eq]
  have hboard : m.step.2.board = m.settled := congrArg₂ Board.mk hcpu hbus
  exact ⟨by rw [hboard]; exact h.settled, by rw [hboard]; exact h.disabled_settled⟩

theorem Rests.keepsTime (h : m.Rests) : m.KeepsTime := by
  have haccesses : m.accesses = [] := by
    rw [accesses, h.settled.interruptAccesses_eq_nil, h.board.stepAccesses_eq_nil]
    rfl
  refine ⟨h.board.control_step.2, fun v hv => ?_, fun v hv => ?_⟩ <;> rw [haccesses] at hv
  · exact absurd hv List.not_mem_nil
  · exact absurd hv List.not_mem_nil

/-- A cartridge that holds nothing but `HALT`. -/
def haltImage : List UInt8 :=
  List.replicate romWindowSize 0x76

/-- A cartridge that holds the same byte everywhere. -/
theorem peek_insert_replicate (bus : Bus) (v : UInt8) {a : UInt16} (ha : a.toNat < romWindowSize) :
    (bus.insert (List.replicate romWindowSize v)).peek a = v := by
  have hlength : (List.replicate romWindowSize v).length = romWindowSize := List.length_replicate
  have hlt : a.toNat < (List.replicate romWindowSize v).length := by rwa [hlength]
  rw [Bus.insert_of_length_le _ (Nat.le_of_eq hlength),
    peek_romWindow_of_lt _ (Nat.le_of_eq hlength) hlt]
  exact List.getElem_replicate _

theorem nextByte_eq (s : Board Bus) : s.nextByte = s.bus.peek s.cpu.regs.pc := rfl

/-- A machine that is about to execute the first instruction of the image, with no interrupt
enabled, is at rest. -/
theorem rests_insert_haltImage (hcpu : m.board.cpu = .create .dmg)
    (hdisabled : m.board.bus.peek enableAddress = 0) : (m.insert haltImage).Rests := by
  have hdisabled : (m.insert haltImage).board.bus.peek enableAddress = 0 := by
    rw [peek_insert, Bus.peek_insert_of_le _ _ (by decide), hdisabled]
  refine ⟨⟨?_, .inr ⟨?_, ?_⟩, isEmpty_of_disabled hdisabled⟩, hdisabled⟩
  · rw [cpu_insert, hcpu]
    rfl
  · rw [cpu_insert, hcpu]
    rfl
  · have hpc : (Sm83.Cpu.create .dmg).regs.pc = 0x0100 := rfl
    rw [nextByte_eq, cpu_insert, hcpu, hpc, peek_insert]
    exact peek_insert_replicate _ _ (by decide)

theorem rests_powerOn_haltImage [NoiseSource] (journal : Journal) :
    (powerOn {} journal haltImage).Rests :=
  rests_insert_haltImage rfl (Bus.peek_powerOn _ _ (by decide))

/-- A frame and a step of a machine that halts at once. -/
theorem inTime_haltImage :
    ((powerOn {} .silent haltImage).run [.frame, .step]).2.totalCycles =
        stepCycles ((powerOn {} .silent haltImage).starts [.frame, .step]) ∧
      ((powerOn {} .silent haltImage).run [.frame, .step]).2.InTime := by
  refine inTime_run {} .silent haltImage [.frame, .step] fun m hm => ?_
  have hrests := forall_starts (rests_powerOn_haltImage .silent)
    (fun _ _ h => ⟨h.board, h.disabled⟩) (fun _ h => h.step) [.frame, .step]
  exact (hrests m hm).keepsTime

end Machine

end EightBit.GameBoy
