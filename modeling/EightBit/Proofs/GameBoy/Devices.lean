import EightBit.Proofs.GameBoy.Requests
import Mathlib.Logic.Function.Iterate

/-!
# The devices behind the registers

The display, the timer and the link port are machines of their own. What a write does to one of them
depends on the device it reaches and on the byte alone, and every T-cycle moves each of them on by
itself; they share only the request register.

## Main definitions

* `Lcd.written`, `Timer.written`, `Serial.written`: a device after a write to a target.
* `Lcd.dot`, `Lcd.requestsOfDot`: the display after one dot, and what it requests.

## Main results

* `Clockwork.lcd_run`, `Clockwork.timer_run`: time moves each device on by itself.
* `Clockwork.requests_cycle`: what one T-cycle requests.
-/

namespace EightBit.GameBoy

open Sm83 (requestAddress InterruptSource)

/-! ### The devices on their own -/

namespace Lcd

/-- A write to the control register. Switching the display off resets its position. -/
def writeControl (d : Lcd) (v : UInt8) : Lcd :=
  if d.isOn && !switchedOn v then { d with control := v, dots := 0, line := 0 }.refresh
  else { d with control := v }.refresh

/-- A write to the status register, of which only the selections change. -/
def writeStatus (d : Lcd) (v : UInt8) : Lcd :=
  { d with status := (d.status &&& 0x07) ||| (v &&& 0x78) ||| 0x80 }.refresh

/-- A write to the register that holds the line to be reported. -/
def writeCompare (d : Lcd) (v : UInt8) : Lcd :=
  { d with compare := v }.refresh

/-- The display after a write to a target. -/
def written (d : Lcd) (v : UInt8) : Target → Lcd
  | .lcdControl => d.writeControl v
  | .lcdStatus => d.writeStatus v
  | .lcdCompare => d.writeCompare v
  | _ => d

/-- Counts the vertical blank that has begun since the line was `old`, if one has. -/
def countBlank (d : Lcd) (old : UInt8) : Lcd :=
  if entersBlank old d.line then { d with frames := d.frames + 1 } else d

/-- The display after one dot. -/
def dot (d : Lcd) : Lcd :=
  if !d.isOn then d.rest else (d.advance.countBlank d.line).refresh

/-- What the display requests in one dot: the vertical blank when it begins, and the status
interrupt when its line rises; with the selection of mode 2 also when the vertical blank begins. -/
def requestsOfDot (d : Lcd) : UInt8 :=
  if !d.isOn then 0
  else
    (if entersBlank d.line d.advance.line then
        InterruptSource.vblank.mask |||
          if d.status &&& 0x20 != 0 then InterruptSource.lcdStat.mask else 0
      else 0) |||
      if d.advance.rises then InterruptSource.lcdStat.mask else 0

@[simp] theorem control_refresh (d : Lcd) : d.refresh.control = d.control := rfl

@[simp] theorem compare_refresh (d : Lcd) : d.refresh.compare = d.compare := rfl

theorem countBlank_eq (d : Lcd) (old : UInt8) :
    d.countBlank old = { d with frames := (d.countBlank old).frames } := by
  unfold countBlank
  split <;> rfl

/-- A dot leaves the control register alone. -/
@[simp] theorem control_dot (d : Lcd) : d.dot.control = d.control := by
  unfold dot
  split
  · rfl
  · rw [control_refresh, countBlank_eq]
    rfl

@[simp] theorem compare_dot (d : Lcd) : d.dot.compare = d.compare := by
  unfold dot
  split
  · rfl
  · rw [compare_refresh, countBlank_eq]
    rfl

@[simp] theorem control_iterate_dot (n : Nat) (d : Lcd) : (dot^[n] d).control = d.control := by
  induction n generalizing d with
  | zero => rfl
  | succ n ih => rw [Function.iterate_succ_apply, ih, control_dot]

@[simp] theorem compare_iterate_dot (n : Nat) (d : Lcd) : (dot^[n] d).compare = d.compare := by
  induction n generalizing d with
  | zero => rfl
  | succ n ih => rw [Function.iterate_succ_apply, ih, compare_dot]

end Lcd

/-- The timer after a write to a target. -/
def Timer.written (t : Timer) (v : UInt8) : Target → Timer
  | .divider => t.writeDivider
  | .timerCounter => t.writeCounter v
  | .timerModulo => t.writeModulo v
  | .timerControl => t.writeControl v
  | _ => t

/-- The link port after a write to a target. -/
def Serial.written (s : Serial) (v : UInt8) : Target → Serial
  | .serialData => s.writeData v
  | .serialControl => s.writeControl v
  | _ => s

/-! ### Time -/

namespace Clockwork

theorem refresh_eq (c : Clockwork) :
    c.refresh = { c with
      lcd := c.lcd.refresh
      requests := c.requests ||| if c.lcd.rises then InterruptSource.lcdStat.mask else 0
      journal := c.refresh.journal } := by
  unfold refresh
  dsimp only
  split
  · rfl
  · rw [UInt8.or_zero]

@[simp] theorem lcd_refresh (c : Clockwork) : c.refresh.lcd = c.lcd.refresh := by
  rw [refresh_eq]

@[simp] theorem timer_refresh (c : Clockwork) : c.refresh.timer = c.timer := by
  rw [refresh_eq]

theorem lcd_beginBlank (c : Clockwork) (old : UInt8) :
    (c.beginBlank old).lcd = { c.lcd with frames := c.lcd.frames + 1 } := by
  unfold beginBlank
  dsimp only
  split <;> rfl

theorem requests_beginBlank (c : Clockwork) (old : UInt8) :
    (c.beginBlank old).requests =
      c.requests ||| (InterruptSource.vblank.mask |||
        if c.lcd.status &&& 0x20 != 0 then InterruptSource.lcdStat.mask else 0) := by
  unfold beginBlank
  dsimp only
  split
  next h =>
    have hselected : (c.lcd.status &&& 0x20 != 0) = true := h
    rw [if_pos hselected, ← UInt8.or_assoc]
    rfl
  next h =>
    have hselected : ¬(c.lcd.status &&& 0x20 != 0) = true := h
    rw [if_neg hselected, UInt8.or_zero]
    rfl

/-- The display after a dot, and what it requests. -/
theorem lcd_dot (c : Clockwork) : c.dot.lcd = c.lcd.dot := by
  unfold dot Lcd.dot Lcd.countBlank
  split
  · rfl
  · dsimp only
    rw [lcd_refresh, apply_ite Clockwork.lcd, lcd_beginBlank]

theorem timer_beginBlank (c : Clockwork) (old : UInt8) : (c.beginBlank old).timer = c.timer := by
  unfold beginBlank
  dsimp only
  split <;> rfl

theorem timer_dot (c : Clockwork) : c.dot.timer = c.timer := by
  unfold dot
  split
  · rfl
  · dsimp only
    rw [timer_refresh]
    split
    · exact timer_beginBlank _ _
    · rfl

theorem requests_dot (c : Clockwork) : c.dot.requests = c.requests ||| c.lcd.requestsOfDot := by
  unfold dot Lcd.requestsOfDot
  split
  · exact UInt8.or_zero.symm
  dsimp only
  rw [refresh_eq]
  split
  next h =>
    have hrises : ({ c with lcd := c.lcd.advance }.beginBlank c.lcd.line).lcd.rises =
        c.lcd.advance.rises := by
      rw [lcd_beginBlank]
      rfl
    rw [hrises, requests_beginBlank, UInt8.or_assoc]
    rfl
  next => rw [UInt8.zero_or]

theorem timerCycle_eq (c : Clockwork) :
    c.timerCycle = { c with
      timer := c.timer.tick
      requests := c.requests ||| if c.timer.requests then InterruptSource.timer.mask else 0 } := by
  unfold timerCycle
  dsimp only
  split
  · rfl
  · rw [UInt8.or_zero]

theorem lcd_cycle (c : Clockwork) : c.cycle.lcd = c.lcd.dot := by
  rw [cycle, lcd_dot, timerCycle_eq]

theorem timer_cycle (c : Clockwork) : c.cycle.timer = c.timer.tick := by
  rw [cycle, timer_dot, timerCycle_eq]

/-- What a T-cycle requests: the timer first, then the display. -/
theorem requests_cycle (c : Clockwork) :
    c.cycle.requests =
      c.requests ||| (if c.timer.requests then InterruptSource.timer.mask else 0) |||
        c.lcd.requestsOfDot := by
  rw [cycle, requests_dot, timerCycle_eq]

/-- Of a choice between a source and none no other bit is set. -/
theorem hasBit_mask_or_zero {source : InterruptSource} {k : Nat} (h : k ≠ source.index) (p : Prop)
    [Decidable p] : hasBit (if p then source.mask else 0) k = false := by
  split
  · rw [InterruptSource.hasBit_mask, decide_eq_false h]
  · exact hasBit_zero k

/-- The display requests its own two interrupts and no other. -/
theorem hasBit_requestsOfDot (d : Lcd) {k : Nat} (h : InterruptSource.timer.index < k) :
    hasBit d.requestsOfDot k = false := by
  have hvblank : k ≠ InterruptSource.vblank.index := by rintro rfl; exact absurd h (by decide)
  have hstat : k ≠ InterruptSource.lcdStat.index := by rintro rfl; exact absurd h (by decide)
  unfold Lcd.requestsOfDot
  split
  · exact hasBit_zero k
  rw [hasBit_or, hasBit_mask_or_zero hstat, Bool.or_false]
  split
  · rw [hasBit_or, InterruptSource.hasBit_mask, decide_eq_false hvblank,
      hasBit_mask_or_zero hstat, Bool.or_false]
  · exact hasBit_zero k

/-- Time requests the interrupts of the display and of the timer. The bits above theirs stay as they
are. -/
theorem hasBit_requests_run (n : Nat) (c : Clockwork) {k : Nat}
    (h : InterruptSource.timer.index < k) :
    hasBit (run n c).requests k = hasBit c.requests k := by
  induction n generalizing c with
  | zero => rfl
  | succ n ih =>
    rw [run, ih, requests_cycle, hasBit_or, hasBit_or, hasBit_mask_or_zero (Nat.ne_of_gt h),
      hasBit_requestsOfDot _ h, Bool.or_false, Bool.or_false]

/-- Time moves the display on by itself. -/
theorem lcd_run (n : Nat) (c : Clockwork) : (run n c).lcd = Lcd.dot^[n] c.lcd := by
  induction n generalizing c with
  | zero => rfl
  | succ n ih => rw [Function.iterate_succ_apply, ← lcd_cycle, ← ih, run]

/-- Time moves the timer on by itself. -/
theorem timer_run (n : Nat) (c : Clockwork) : (run n c).timer = Timer.tick^[n] c.timer := by
  induction n generalizing c with
  | zero => rfl
  | succ n ih => rw [Function.iterate_succ_apply, ← timer_cycle, ← ih, run]

end Clockwork

end EightBit.GameBoy
