import EightBit.Proofs.GameBoy.Notices
import EightBit.Proofs.GameBoy.Registers

/-!
# Time does not depend on how it is dealt out

The timer and the display take turns with every T-cycle. They share the request register, to which
both only add, and neither looks at what the other does. It is therefore the same to let them take
turns, to let all T-cycles pass for the timer first, or for the display first, and to deal out the
T-cycles in any number of batches, although memory shows the timer only at the end of each.

The notices alone tell the order: each of the display's shows the request register as it is then.

## Main definitions

* `Bus.timerCycle`, `Bus.dot`, `Bus.cycle`: a T-cycle for the timer, for the display, and for the
  one after the other.
* `Bus.TimeIsOrderFree`: time in batches, in turn, and one device after the other.

## Main results

* `Clockwork.run_hushed_eq`: the devices in turn and one after the other.
* `Bus.timeIsOrderFree_run`: time for a bus in every state.
-/

namespace EightBit.GameBoy

namespace Clockwork

/-! ### The devices one after the other -/

/-- The two devices do not depend on each other, notices apart. -/
theorem dot_timerCycle_hushed (c : Clockwork) :
    c.hushed.timerCycle.dot = c.hushed.dot.timerCycle := by
  have hrequests (r s d : UInt8) : r ||| s ||| d = r ||| d ||| s := by
    rw [UInt8.or_assoc, UInt8.or_comm s, UInt8.or_assoc]
  rw [timerCycle_hushed, dot_hushed, dot_hushed, timerCycle_hushed, hushed, hushed, mk.injEq]
  refine ⟨?_, ?_, ?_, rfl⟩
  · rw [timer_dot, timerCycle_eq, timerCycle_eq, timer_dot]
  · rw [lcd_dot, timerCycle_eq, timerCycle_eq, lcd_dot]
  · rw [requests_dot, timerCycle_eq, timerCycle_eq, requests_dot, timer_dot]
    exact hrequests _ _ _

theorem iterate_hushed {f : Clockwork → Clockwork} (hf : ∀ c, (f c).hushed = f c.hushed)
    (n : Nat) (c : Clockwork) : (f^[n] c).hushed = f^[n] c.hushed :=
  (Function.Semiconj.iterate_right hf n).eq c

theorem iterate_timerCycle_hushed (n : Nat) (c : Clockwork) :
    (timerCycle^[n] c).hushed = timerCycle^[n] c.hushed :=
  iterate_hushed (fun c => c.timerCycle_hushed.symm) n c

theorem iterate_dot_hushed (n : Nat) (c : Clockwork) : (dot^[n] c).hushed = dot^[n] c.hushed :=
  iterate_hushed (fun c => c.dot_hushed.symm) n c

theorem iterate_timerCycle_dot_hushed (n : Nat) (c : Clockwork) :
    timerCycle^[n] c.hushed.dot = (timerCycle^[n] c.hushed).dot := by
  induction n generalizing c with
  | zero => rfl
  | succ n ih =>
    rw [Function.iterate_succ_apply, Function.iterate_succ_apply, ← dot_timerCycle_hushed,
      timerCycle_hushed, ih]

/-- Any number of T-cycles of one device may come before any number of the other. -/
theorem iterate_timerCycle_iterate_dot_hushed (m n : Nat) (c : Clockwork) :
    timerCycle^[m] (dot^[n] c.hushed) = dot^[n] (timerCycle^[m] c.hushed) := by
  induction n with
  | zero => rfl
  | succ n ih =>
    rw [Function.iterate_succ_apply', Function.iterate_succ_apply', ← ih, ← iterate_dot_hushed,
      iterate_timerCycle_dot_hushed]

theorem run_eq_iterate (n : Nat) (c : Clockwork) : run n c = cycle^[n] c := by
  induction n generalizing c with
  | zero => rfl
  | succ n ih => rw [run, ih, Function.iterate_succ_apply]

/-- The devices in turn, and one after the other. -/
theorem run_hushed_eq (n : Nat) (c : Clockwork) :
    run n c.hushed = dot^[n] (timerCycle^[n] c.hushed) := by
  induction n generalizing c with
  | zero => rfl
  | succ n ih =>
    have hcycle : c.hushed.cycle = c.cycle.hushed := by
      rw [cycle, timerCycle_hushed, dot_hushed, cycle]
    have hfirst : c.cycle.hushed = c.timerCycle.hushed.dot := by
      rw [← hcycle, cycle, timerCycle_hushed]
    rw [run, hcycle, ih, hfirst, iterate_timerCycle_dot_hushed, ← timerCycle_hushed,
      ← Function.iterate_succ_apply, ← Function.iterate_succ_apply]

end Clockwork

namespace Bus

/-! ### The devices on the bus -/

/-- One T-cycle for the timer alone. -/
def timerCycle (bus : Bus) : Bus :=
  bus.withClockwork bus.clockwork.timerCycle

/-- One T-cycle for the display alone. -/
def dot (bus : Bus) : Bus :=
  bus.withClockwork bus.clockwork.dot

/-- One T-cycle for the timer, then for the display. -/
def cycle (bus : Bus) : Bus :=
  bus.timerCycle.dot

variable (bus : Bus)

theorem withClockwork_clockwork : bus.withClockwork bus.clockwork = bus := by
  have hmemory : (bus.withClockwork bus.clockwork).memory = bus.memory := by
    simp only [withClockwork, clockwork, lcd, peek, Memory.write_read_self]
  calc bus.withClockwork bus.clockwork
      = { bus with memory := (bus.withClockwork bus.clockwork).memory } := rfl
    _ = bus := by rw [hmemory]

/-- What is put back later counts. -/
theorem withClockwork_withClockwork (c d : Clockwork) :
    (bus.withClockwork c).withClockwork d = bus.withClockwork d := by
  have hmemory : ((bus.withClockwork c).withClockwork d).memory = (bus.withClockwork d).memory := by
    refine Memory.ext fun r => ?_
    change ((bus.withClockwork c).withClockwork d).peek r = (bus.withClockwork d).peek r
    simp only [peek_withClockwork]
    split_ifs <;> rfl
  calc (bus.withClockwork c).withClockwork d
      = { bus.withClockwork d with
          memory := ((bus.withClockwork c).withClockwork d).memory } := rfl
    _ = bus.withClockwork d := by rw [hmemory]

/-- The settings of the display, which time leaves alone, are those that memory holds. -/
structure Fits (c : Clockwork) : Prop where
  control : c.lcd.control = bus.peek lcdControlAddress
  compare : c.lcd.compare = bus.peek lcdCompareAddress

theorem fits_clockwork : bus.Fits bus.clockwork := ⟨rfl, rfl⟩

variable {bus}

theorem Fits.timerCycle {c : Clockwork} (h : bus.Fits c) : bus.Fits c.timerCycle := by
  rw [Clockwork.timerCycle_eq]
  exact ⟨h.control, h.compare⟩

theorem Fits.dot {c : Clockwork} (h : bus.Fits c) : bus.Fits c.dot where
  control := by rw [Clockwork.lcd_dot, Lcd.control_dot, h.control]
  compare := by rw [Clockwork.lcd_dot, Lcd.compare_dot, h.compare]

theorem timerCycle_withClockwork {c : Clockwork} (h : bus.Fits c) :
    (bus.withClockwork c).timerCycle = bus.withClockwork c.timerCycle := by
  rw [timerCycle, clockwork_withClockwork bus c h.control h.compare, withClockwork_withClockwork]

theorem dot_withClockwork {c : Clockwork} (h : bus.Fits c) :
    (bus.withClockwork c).dot = bus.withClockwork c.dot := by
  rw [dot, clockwork_withClockwork bus c h.control h.compare, withClockwork_withClockwork]

theorem cycle_withClockwork {c : Clockwork} (h : bus.Fits c) :
    (bus.withClockwork c).cycle = bus.withClockwork c.cycle := by
  rw [cycle, timerCycle_withClockwork h, dot_withClockwork h.timerCycle, Clockwork.cycle]

/-- What a bus does to the devices put back, it does any number of times. -/
theorem iterate_withClockwork {g : Bus → Bus} {f : Clockwork → Clockwork}
    (hg : ∀ c, bus.Fits c → g (bus.withClockwork c) = bus.withClockwork (f c))
    (hf : ∀ c, bus.Fits c → bus.Fits (f c)) {c : Clockwork} (hc : bus.Fits c) (n : Nat) :
    g^[n] (bus.withClockwork c) = bus.withClockwork (f^[n] c) ∧ bus.Fits (f^[n] c) := by
  induction n generalizing c with
  | zero => exact ⟨rfl, hc⟩
  | succ n ih =>
    rw [Function.iterate_succ_apply, Function.iterate_succ_apply, hg c hc]
    exact ih (hf c hc)

theorem iterate_timerCycle_withClockwork {c : Clockwork} (hc : bus.Fits c) (n : Nat) :
    timerCycle^[n] (bus.withClockwork c) = bus.withClockwork (Clockwork.timerCycle^[n] c) ∧
      bus.Fits (Clockwork.timerCycle^[n] c) :=
  iterate_withClockwork (fun _ => timerCycle_withClockwork) (fun _ h => h.timerCycle) hc n

theorem iterate_dot_withClockwork {c : Clockwork} (hc : bus.Fits c) (n : Nat) :
    dot^[n] (bus.withClockwork c) = bus.withClockwork (Clockwork.dot^[n] c) ∧
      bus.Fits (Clockwork.dot^[n] c) :=
  iterate_withClockwork (fun _ => dot_withClockwork) (fun _ h => h.dot) hc n

theorem iterate_cycle_withClockwork {c : Clockwork} (hc : bus.Fits c) (n : Nat) :
    cycle^[n] (bus.withClockwork c) = bus.withClockwork (Clockwork.cycle^[n] c) :=
  (iterate_withClockwork (fun _ => cycle_withClockwork) (fun _ h => h.timerCycle.dot) hc n).1

/-! ### Time in any order -/

variable (bus) in
/-- Time for a bus: in batches, with the devices in turn, and with one device after the other. All
of memory is the same, and all that memory does not show, apart from the notices where the order
changes: they hold the request register as it is when they are made. -/
structure TimeIsOrderFree : Prop where
  batches (m n : Nat) : (bus.passTime m).passTime n = bus.passTime (m + n)
  empty : bus.passTime 0 = bus
  inTurn (n : Nat) : bus.passTime n = (cycle^[n] bus).syncTimer
  timerFirst (n : Nat) :
    (bus.passTime n).hushed = (dot^[n] (timerCycle^[n] bus)).syncTimer.hushed
  displayFirst (n : Nat) :
    (bus.passTime n).hushed = (timerCycle^[n] (dot^[n] bus)).syncTimer.hushed

theorem syncTimer_of_showsTimer (h : bus.ShowsTimer) : bus.syncTimer = bus := by
  have hmemory : bus.syncTimer.memory = bus.memory := by
    simp only [syncTimer, mapMemory, ← h.divider, ← h.counter, ← h.modulo, ← h.control, peek,
      Memory.write_read_self]
  calc bus.syncTimer
      = { bus with memory := bus.syncTimer.memory } := rfl
    _ = bus := by rw [hmemory]

theorem passTime_zero (h : bus.ShowsTimer) : bus.passTime 0 = bus := by
  rw [passTime, Clockwork.run_zero, withClockwork_clockwork, syncTimer_of_showsTimer h]

/-- Devices that differ in their notices alone show the same. -/
theorem hushed_syncTimer_withClockwork {c d : Clockwork} (h : c.hushed = d.hushed) :
    (bus.withClockwork c).syncTimer.hushed = (bus.withClockwork d).syncTimer.hushed := by
  change (bus.withClockwork c.hushed).syncTimer = (bus.withClockwork d.hushed).syncTimer
  rw [h]

variable (bus) in
theorem passTime_hushed_timerFirst (n : Nat) :
    (bus.passTime n).hushed = (dot^[n] (timerCycle^[n] bus)).syncTimer.hushed := by
  obtain ⟨htimer, hfits⟩ := iterate_timerCycle_withClockwork bus.fits_clockwork n
  obtain ⟨hdot, -⟩ := iterate_dot_withClockwork hfits n
  rw [withClockwork_clockwork] at htimer
  rw [htimer, hdot, passTime]
  refine hushed_syncTimer_withClockwork ?_
  rw [← Clockwork.run_hushed, Clockwork.run_hushed_eq, Clockwork.iterate_dot_hushed,
    Clockwork.iterate_timerCycle_hushed]

variable (bus) in
theorem passTime_hushed_displayFirst (n : Nat) :
    (bus.passTime n).hushed = (timerCycle^[n] (dot^[n] bus)).syncTimer.hushed := by
  obtain ⟨hdot, hfits⟩ := iterate_dot_withClockwork bus.fits_clockwork n
  obtain ⟨htimer, -⟩ := iterate_timerCycle_withClockwork hfits n
  rw [withClockwork_clockwork] at hdot
  rw [hdot, htimer, passTime]
  refine hushed_syncTimer_withClockwork ?_
  rw [← Clockwork.run_hushed, Clockwork.run_hushed_eq, Clockwork.iterate_timerCycle_hushed,
    Clockwork.iterate_dot_hushed, Clockwork.iterate_timerCycle_iterate_dot_hushed]

/-- Whatever a driver has done with a bus since power-on, the time that passes next may be dealt
out in any batches and to the devices in any order. -/
theorem timeIsOrderFree_run (ram : RamBytes) (journal : Journal) (cs : List Call) :
    ((powerOn ram journal).run cs).TimeIsOrderFree where
  batches m n := (passTime_add m n _).symm
  empty := passTime_zero (consistent_run ram journal cs).timer
  inTurn n := by
    have hturn := iterate_cycle_withClockwork ((powerOn ram journal).run cs).fits_clockwork n
    rw [withClockwork_clockwork] at hturn
    rw [hturn, passTime, Clockwork.run_eq_iterate]
  timerFirst := passTime_hushed_timerFirst _
  displayFirst := passTime_hushed_displayFirst _

end Bus

end EightBit.GameBoy
