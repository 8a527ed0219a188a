import EightBit.Proofs.GameBoy.Calls

/-!
# The status interrupt is edge-triggered

Whatever a driver does with a bus from power-on, the status line that the bus remembers is high
exactly if the display is on and a selected condition holds. A write or a T-cycle requests the
status interrupt exactly when that condition begins to hold; a T-cycle also does so when the
vertical blank begins while mode 2 is selected. Apart from these only a request made from outside
and a write to the request register itself can set its bit.

## Main definitions

* `Bus.StatRequested`: the status interrupt is requested.
* `Bus.LineRises`, `Bus.BlankBegins`: what leads to a request, seen from the states before and
  after.
* `Bus.EdgeTriggered`: when the calls of a bus request the status interrupt.

## Main results

* `Bus.edgeTriggered_run`: the status interrupt is edge-triggered in every state.
-/

namespace EightBit.GameBoy

open Sm83 (requestAddress InterruptSource)

namespace Bus

/-- The status interrupt is requested. -/
def StatRequested (bus : Bus) : Prop :=
  hasBit (bus.peek requestAddress) InterruptSource.lcdStat.index = true

/-- The status line is low before and high after. -/
def LineRises (before after : Bus) : Prop :=
  ¬before.lcd.LineHigh ∧ after.lcd.LineHigh

/-- The vertical blank begins while mode 2 is selected. -/
def BlankBegins (before after : Bus) : Prop :=
  before.peek lcdLineAddress = 143 ∧ after.peek lcdLineAddress = 144 ∧
    hasBit (before.peek lcdStatusAddress) 5 = true

/-- Calls that neither write, let time pass nor request an interrupt. -/
def Call.IsIdle : Call → Prop
  | .read _ | .insert _ | .hook _ => True
  | .tick n => n = 0
  | .write .. | .request _ => False

/-- When the calls of a bus request the status interrupt. -/
structure EdgeTriggered (bus : Bus) : Prop where
  /-- The bus remembers the status line. -/
  line : bus.statLine = true ↔ bus.lcd.LineHigh
  write (a : UInt16) (v : UInt8) (ha : a ≠ requestAddress) (hclear : ¬bus.StatRequested) :
    (bus.apply (.write a v)).StatRequested ↔ bus.LineRises (bus.apply (.write a v))
  cycle (hclear : ¬bus.StatRequested) :
    (bus.apply (.tick 1)).StatRequested ↔
      bus.LineRises (bus.apply (.tick 1)) ∨ bus.BlankBegins (bus.apply (.tick 1))
  /-- Any other time is one T-cycle after the other. -/
  cycles (n : Nat) : bus.apply (.tick (n + 1)) = (bus.apply (.tick 1)).apply (.tick n)
  idle (c : Call) (hc : c.IsIdle) : (bus.apply c).StatRequested ↔ bus.StatRequested

/-! ### Writes -/

theorem hasBit_maskOf_lcdStat (rises : Bool) :
    hasBit (maskOf (if rises then some .lcdStat else none)) InterruptSource.lcdStat.index =
      rises := by
  cases rises <;> rfl

theorem hasBit_maskOf_serial (starts : Bool) :
    hasBit (maskOf (if starts then some .serial else none)) InterruptSource.lcdStat.index =
      false := by
  cases starts <;> rfl

/-- A write requests the status interrupt if the line was low and the display has it high after the
write. -/
theorem hasBit_raised? {bus : Bus} (h : bus.lcd.WellFormed) (a : UInt16) (v : UInt8) :
    hasBit (maskOf (bus.raised? a v)) InterruptSource.lcdStat.index =
      (!bus.lcd.sourceActive && (bus.writeByte a v).lcd.sourceActive) := by
  rw [lcd_writeByte, raised?, ← h.statLine]
  cases Target.ofAddress a <;> dsimp only
  case lcdControl =>
    rw [hasBit_maskOf_lcdStat, Lcd.written, Lcd.sourceActive_writeControl]
    rfl
  case lcdStatus =>
    rw [hasBit_maskOf_lcdStat, Lcd.written, Lcd.sourceActive_writeStatus]
    rfl
  case lcdCompare =>
    rw [hasBit_maskOf_lcdStat, Lcd.written, Lcd.writeCompare, Lcd.sourceActive_refresh]
    rfl
  -- The other registers are not those of the display, whose line stays as it is.
  all_goals
    change _ = (!bus.lcd.statLine && bus.lcd.sourceActive)
    rw [← h.statLine, Bool.not_and_self]
  case serialControl => exact hasBit_maskOf_serial _
  all_goals exact hasBit_zero _

theorem statRequested_writeByte_iff {bus : Bus} (h : bus.lcd.WellFormed) {a : UInt16} (v : UInt8)
    (ha : a ≠ requestAddress) :
    (bus.writeByte a v).StatRequested ↔ bus.StatRequested ∨ bus.LineRises (bus.writeByte a v) := by
  change hasBit (bus.writeByte a v).requests _ = true ↔ hasBit bus.requests _ = true ∨ _
  rw [requests_writeByte bus v ha, hasBit_or, hasBit_raised? h, Bool.or_eq_true, Bool.and_eq_true,
    Bool.not_eq_true', ← Bool.not_eq_true, Lcd.sourceActive_iff, Lcd.sourceActive_iff, LineRises]

/-! ### Time -/

/-- The timer does not request the status interrupt. -/
theorem hasBit_timerRequest (requests : Bool) :
    hasBit (if requests then InterruptSource.timer.mask else 0) InterruptSource.lcdStat.index =
      false := by
  cases requests <;> rfl

theorem statRequested_passTime_one_iff {bus : Bus} (h : bus.lcd.WellFormed) :
    (bus.passTime 1).StatRequested ↔
      bus.StatRequested ∨ bus.LineRises (bus.passTime 1) ∨ bus.BlankBegins (bus.passTime 1) := by
  have hlcd : (bus.passTime 1).lcd = bus.lcd.dot := bus.lcd_passTime 1
  have hline : (bus.passTime 1).peek lcdLineAddress = bus.lcd.dot.line := congrArg Lcd.line hlcd
  have hrequests : (bus.passTime 1).requests = bus.clockwork.cycle.requests :=
    bus.requests_passTime 1
  change hasBit (bus.passTime 1).requests _ = true ↔ hasBit bus.requests _ = true ∨ _
  rw [hrequests, Clockwork.requests_cycle, hasBit_or, hasBit_or, hasBit_timerRequest, Bool.or_false,
    Bool.or_eq_true]
  refine or_congr Iff.rfl (h.hasBit_requestsOfDot_iff.trans ?_)
  rw [LineRises, BlankBegins, hlcd, hline]
  rfl

/-! ### Other calls -/

theorem requests_apply_of_isIdle (bus : Bus) {c : Call} (hc : c.IsIdle) :
    (bus.apply c).requests = bus.requests := by
  cases c with
  | read | hook => rfl
  | insert image => exact bus.peek_insert_of_le image (by decide)
  | tick n =>
    obtain rfl : n = 0 := hc
    exact bus.requests_passTime 0
  | write | request => exact absurd hc id

theorem edgeTriggered {bus : Bus} (h : bus.lcd.WellFormed) : bus.EdgeTriggered where
  line := by
    rw [← Lcd.sourceActive_iff, ← h.statLine]
    rfl
  write a v ha hclear := (statRequested_writeByte_iff h v ha).trans (or_iff_right hclear)
  cycle hclear := (statRequested_passTime_one_iff h).trans (or_iff_right hclear)
  cycles n := by
    rw [Nat.add_comm]
    exact bus.passTime_add 1 n
  idle c hc := by
    change hasBit (bus.apply c).requests _ = true ↔ hasBit bus.requests _ = true
    rw [requests_apply_of_isIdle bus hc]

/-- Whatever is done with a bus from power-on, the status interrupt is edge-triggered. -/
theorem edgeTriggered_run (ram : RamBytes) (journal : Journal) (cs : List Call) :
    ((powerOn ram journal).run cs).EdgeTriggered :=
  edgeTriggered (wellFormed_lcd_run ram journal cs)

end Bus

end EightBit.GameBoy
