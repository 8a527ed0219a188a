import EightBit.GameBoy.Lcd
import EightBit.GameBoy.Timer
import EightBit.Journal

/-!
# What time changes

The part of the handheld that advances with every T-cycle: the timer and the display controller,
the interrupts they request, and the notices about them.

## Main definitions

* `Clockwork`: the clocked devices and the request register.
* `Clockwork.refresh`: brings the display's status up to date and requests its interrupt.
* `Clockwork.cycle`, `Clockwork.run`: one T-cycle, and any number of them.

## Main results

* `Clockwork.run_add`: time may be split in any way.
-/

namespace EightBit.GameBoy

open Sm83 (InterruptSource)

/-- The devices that advance with time, with the request register they share. -/
structure Clockwork where
  timer : Timer
  lcd : Lcd
  /-- The interrupt request register. -/
  requests : UInt8
  journal : Journal

namespace Clockwork

/-- Requests an interrupt. -/
@[inline] def request (c : Clockwork) (source : InterruptSource) : Clockwork :=
  { c with requests := c.requests ||| source.mask }

/-- Adds a notice. -/
@[inline] def note (c : Clockwork) (n : Notice) : Clockwork :=
  { c with journal := c.journal.note n }

/-- Brings the display's status up to date; a status line that rises requests its interrupt. -/
def refresh (c : Clockwork) : Clockwork :=
  let rises := c.lcd.rises
  let c := { c with lcd := c.lcd.refresh }
  if rises then
    let c := c.request .lcdStat
    c.note (.statRise c.lcd.status c.lcd.line c.lcd.mode c.requests)
  else c

/-- The vertical blank begins: its interrupt is requested, and with the selection of mode 2 the
status interrupt too. -/
def beginBlank (c : Clockwork) (oldLine : UInt8) : Clockwork :=
  let c := c.request .vblank
  let c := if c.lcd.status &&& 0x20 != 0 then c.request .lcdStat else c
  let c := { c with lcd := { c.lcd with frames := c.lcd.frames + 1 } }
  c.note (.verticalBlank oldLine c.lcd.line c.requests c.lcd.status)

/-- One dot of the display. -/
def dot (c : Clockwork) : Clockwork :=
  if !c.lcd.isOn then { c with lcd := c.lcd.rest }
  else
    let oldLine := c.lcd.line
    let c := { c with lcd := c.lcd.advance }
    let c := if Lcd.entersBlank oldLine c.lcd.line then c.beginBlank oldLine else c
    c.refresh

/-- One T-cycle of the timer. -/
def timerCycle (c : Clockwork) : Clockwork :=
  let c := if c.timer.requests then c.request .timer else c
  { c with timer := c.timer.tick }

/-- One T-cycle: the timer, then the display. -/
def cycle (c : Clockwork) : Clockwork :=
  c.timerCycle.dot

/-- A number of T-cycles. -/
def run : (n : Nat) → Clockwork → Clockwork
  | 0, c => c
  | n + 1, c => run n c.cycle

@[simp] theorem run_zero (c : Clockwork) : run 0 c = c := rfl

/-- Time may be split in any way. -/
theorem run_add (m n : Nat) (c : Clockwork) : run (m + n) c = run n (run m c) := by
  induction m generalizing c with
  | zero => rw [Nat.zero_add, run_zero]
  | succ m ih => rw [Nat.succ_add]; exact ih c.cycle

end Clockwork

end EightBit.GameBoy
