import EightBit.GameBoy.Bus
import EightBit.Proofs.Bits
import EightBit.Proofs.Memory
import EightBit.Proofs.Sm83.Selection

/-!
# Requests are not withdrawn by devices

The request register gains bits as devices request interrupts. It loses bits only when it is written
itself: the passing of time, a request, and a write to any other address leave every bit set that
was set before. Which source a write requests is determined by its address, its value and the
display.

## Main definitions

* `Bus.requests`: the request register.
* `Bus.raised?`: the source that a write requests.

## Main results

* `Clockwork.within_requests_run`, `Bus.within_requests_passTime`: time withdraws no request.
* `Bus.requests_writeByte`: the requests after a write to another address.
-/

namespace EightBit.GameBoy

open Sm83 (requestAddress InterruptSource)

/-! ### Addresses -/

namespace Target

/-- Where a target lies, for those with a place of their own. -/
def Covers (a : UInt16) : Target → Prop
  | .mirrored => 0xC000 ≤ a ∧ a < 0xDE00
  | .echo => 0xE000 ≤ a ∧ a < 0xFE00
  | .requests => a = requestAddress
  | .lcdCompare => a = lcdCompareAddress
  | _ => True

theorem covers_ofRegister (a : UInt16) : (ofRegister a).Covers a := by
  unfold ofRegister
  split <;> trivial

theorem covers_ofAddress (a : UInt16) : (ofAddress a).Covers a := by
  have hle {b : UInt16} (h : ¬a < b) : b ≤ a := UInt16.not_lt.1 h
  unfold ofAddress
  repeat' split
  all_goals first
    | exact covers_ofRegister a
    | exact ⟨hle ‹_›, ‹_›⟩
    | trivial

end Target

/-! ### Time -/

namespace Clockwork

theorem within_requests_request (c : Clockwork) (source : InterruptSource) :
    BitsWithin c.requests (c.request source).requests :=
  .or _ _

/-- What bringing the status up to date requests. -/
theorem requests_refresh (c : Clockwork) :
    c.refresh.requests =
      if c.lcd.rises then c.requests ||| InterruptSource.lcdStat.mask else c.requests := by
  unfold refresh
  dsimp only
  split <;> rfl

theorem within_requests_refresh (c : Clockwork) : BitsWithin c.requests c.refresh.requests := by
  rw [requests_refresh]
  split
  · exact .or _ _
  · exact .refl _

theorem within_requests_beginBlank (c : Clockwork) (oldLine : UInt8) :
    BitsWithin c.requests (c.beginBlank oldLine).requests := by
  refine (c.within_requests_request .vblank).trans ?_
  unfold beginBlank
  dsimp only
  split
  · exact within_requests_request _ .lcdStat
  · exact .refl _

theorem within_requests_dot (c : Clockwork) : BitsWithin c.requests c.dot.requests := by
  unfold dot
  split
  · exact .refl _
  · dsimp only
    split
    · exact (within_requests_beginBlank { c with lcd := c.lcd.advance } _).trans
        (within_requests_refresh _)
    · exact within_requests_refresh { c with lcd := c.lcd.advance }

theorem within_requests_timerCycle (c : Clockwork) :
    BitsWithin c.requests c.timerCycle.requests := by
  unfold timerCycle
  dsimp only
  split
  · exact c.within_requests_request .timer
  · exact .refl _

/-- One T-cycle withdraws no request. -/
theorem within_requests_cycle (c : Clockwork) : BitsWithin c.requests c.cycle.requests :=
  c.within_requests_timerCycle.trans (within_requests_dot _)

/-- Time withdraws no request. -/
theorem within_requests_run (n : Nat) (c : Clockwork) :
    BitsWithin c.requests (run n c).requests := by
  induction n generalizing c with
  | zero => exact .refl _
  | succ n ih => exact c.within_requests_cycle.trans (ih c.cycle)

end Clockwork

namespace Bus

/-- The request register. -/
def requests (bus : Bus) : UInt8 :=
  bus.peek requestAddress

/-! ### What does not reach the request register -/

theorem requests_poke {bus : Bus} {a : UInt16} (v : UInt8) (h : a ≠ requestAddress) :
    (bus.poke a v).requests = bus.requests :=
  Memory.read_write_of_ne _ _ h

@[simp] theorem requests_note (bus : Bus) (n : Notice) : (bus.note n).requests = bus.requests := rfl

@[simp] theorem requests_request (bus : Bus) (bits : UInt8) :
    (bus.request bits).requests = bus.requests ||| bits :=
  Memory.read_write_self _ _ _

@[simp] theorem requests_syncTimer (bus : Bus) : bus.syncTimer.requests = bus.requests := by
  simp [requests, syncTimer, mapMemory, peek, Memory.read_write, requestAddress, dividerAddress,
    timerCounterAddress, timerModuloAddress, timerControlAddress]

@[simp] theorem requests_mapTimer (bus : Bus) (f : Timer → Timer) :
    (bus.mapTimer f).requests = bus.requests := by
  rw [mapTimer, requests_syncTimer]
  rfl

/-- The clocked devices are put back with their requests. -/
@[simp] theorem requests_withClockwork (bus : Bus) (c : Clockwork) :
    (bus.withClockwork c).requests = c.requests := by
  simp [requests, withClockwork, peek, Memory.read_write, requestAddress, lcdStatusAddress,
    lcdLineAddress]

/-- Telling the hooks of a write leaves memory alone. -/
@[simp] theorem memory_callHooks (bus : Bus) (a : UInt16) (v : UInt8) :
    (bus.callHooks a v).memory = bus.memory := by
  unfold callHooks
  split <;> rfl

/-- Plain memory just stores a byte. -/
theorem peek_writeByte_of_plain (bus : Bus) {a : UInt16} (v : UInt8) (c : UInt16)
    (h : Target.ofAddress a = .plain) :
    (bus.writeByte a v).peek c = if a = c then v else bus.peek c := by
  rw [writeByte, peek, memory_callHooks, h, writeTarget]
  exact Memory.read_write _ _ _ _

@[simp] theorem requests_callHooks (bus : Bus) (a : UInt16) (v : UInt8) :
    (bus.callHooks a v).requests = bus.requests := by
  rw [requests, peek, memory_callHooks]
  rfl

/-- The copying to object memory does not reach the registers. -/
@[simp] theorem requests_startDma (bus : Bus) (v : UInt8) :
    (bus.startDma v).requests = bus.requests := by
  have hdma : oamDmaAddress ≠ requestAddress := by decide
  have hoam : oamSize ≤ (requestAddress - oamStart).toNat := by decide
  calc (bus.startDma v).requests
      = (bus.memory.copy (v.toUInt16 <<< 8) oamStart oamSize).read requestAddress :=
        Memory.read_write_of_ne _ _ hdma
    _ = bus.requests := Memory.read_copy_of_outside _ _ _ hoam

theorem requests_refreshLcd (bus : Bus) :
    bus.refreshLcd.requests =
      if bus.lcd.rises then bus.requests ||| InterruptSource.lcdStat.mask else bus.requests := by
  rw [refreshLcd, requests_withClockwork, Clockwork.requests_refresh]
  rfl

/-! ### Writes -/

/-- The source that writing `v` to an address requests. A register of the display does so if the
status line rises with the new value in place. -/
def raised? (bus : Bus) (a : UInt16) (v : UInt8) : Option InterruptSource :=
  match Target.ofAddress a with
  | .serialControl => if Serial.starts v then some .serial else none
  | .lcdControl => if { bus.lcd with control := v }.rises then some .lcdStat else none
  | .lcdStatus => if { bus.lcd with status := v }.rises then some .lcdStat else none
  | .lcdCompare => if { bus.lcd with compare := v }.rises then some .lcdStat else none
  | _ => none

/-- The request bits of a source, if there is one. -/
def maskOf (source? : Option InterruptSource) : UInt8 :=
  source?.elim 0 InterruptSource.mask

theorem exists_of_hasBit_maskOf {source? : Option InterruptSource} {k : Nat}
    (h : hasBit (maskOf source?) k = true) :
    ∃ source, source? = some source ∧ source.index = k := by
  cases source? with
  | none => exact absurd ((hasBit_zero k).symm.trans h) Bool.false_ne_true
  | some source =>
    have hk : decide (k = source.index) = true :=
      (InterruptSource.hasBit_mask source k).symm.trans h
    exact ⟨source, rfl, (of_decide_eq_true hk).symm⟩

theorem maskOf_ite (rises : Bool) (source : InterruptSource) (bits : UInt8) :
    bits ||| maskOf (if rises then some source else none) =
      if rises then bits ||| source.mask else bits := by
  cases rises
  · exact UInt8.or_zero
  · rfl

theorem requests_writeSerialControl (bus : Bus) (v : UInt8) :
    (bus.writeSerialControl v).requests =
      if Serial.starts v then bus.requests ||| InterruptSource.serial.mask else bus.requests := by
  have hsc : serialControlAddress ≠ requestAddress := by decide
  unfold writeSerialControl
  dsimp only
  rw [requests_poke _ hsc]
  split
  · exact requests_request _ _
  · rfl

/-! #### Registers of the display -/

theorem lcd_poke_control (bus : Bus) (v : UInt8) :
    (bus.poke lcdControlAddress v).lcd = { bus.lcd with control := v } := by
  simp [lcd, poke, mapMemory, peek, Memory.read_write, lcdControlAddress, lcdStatusAddress,
    lcdLineAddress, lcdCompareAddress]

theorem lcd_poke_status (bus : Bus) (v : UInt8) :
    (bus.poke lcdStatusAddress v).lcd = { bus.lcd with status := v } := by
  simp [lcd, poke, mapMemory, peek, Memory.read_write, lcdControlAddress, lcdStatusAddress,
    lcdLineAddress, lcdCompareAddress]

theorem lcd_poke_compare (bus : Bus) (v : UInt8) :
    (bus.poke lcdCompareAddress v).lcd = { bus.lcd with compare := v } := by
  simp [lcd, poke, mapMemory, peek, Memory.read_write, lcdControlAddress, lcdStatusAddress,
    lcdLineAddress, lcdCompareAddress]

/-- The status line of a display that is off does not rise. -/
theorem rises_of_off {d : Lcd} (h : d.isOn = false) : d.rises = false := by
  simp [Lcd.rises, Lcd.sourceActive, h]

/-- Of a byte written to the status register the selections are kept. -/
theorem selection_and (old v : UInt8) {m : UInt8} (hlow : 0x07 &&& m = 0) (hmid : 0x78 &&& m = m)
    (htop : 0x80 &&& m = 0) : ((old &&& 0x07) ||| (v &&& 0x78) ||| 0x80) &&& m = v &&& m := by
  rw [or_and_mask, or_and_mask, UInt8.and_assoc, UInt8.and_assoc,
    hlow, hmid, htop, UInt8.and_zero, UInt8.zero_or, UInt8.or_zero]

/-- Whether the status line rises depends on the selections only. -/
theorem rises_selection (d : Lcd) (old v : UInt8) :
    { d with status := (old &&& 0x07) ||| (v &&& 0x78) ||| 0x80 }.rises =
      { d with status := v }.rises := by
  simp only [Lcd.rises, Lcd.sourceActive]
  rw [selection_and old v (by decide) (by decide) (by decide),
    selection_and old v (by decide) (by decide) (by decide),
    selection_and old v (by decide) (by decide) (by decide),
    selection_and old v (by decide) (by decide) (by decide)]
  rfl

theorem requests_writeLcdStatus (bus : Bus) (v : UInt8) :
    (bus.writeLcdStatus v).requests =
      if { bus.lcd with status := v }.rises then bus.requests ||| InterruptSource.lcdStat.mask
      else bus.requests := by
  have hstatus : lcdStatusAddress ≠ requestAddress := by decide
  rw [writeLcdStatus, requests_refreshLcd, lcd_poke_status, rises_selection,
    requests_poke _ hstatus]

theorem requests_writeLcdControl (bus : Bus) (v : UInt8) :
    (bus.writeLcdControl v).requests =
      if { bus.lcd with control := v }.rises then bus.requests ||| InterruptSource.lcdStat.mask
      else bus.requests := by
  have hcontrol : lcdControlAddress ≠ requestAddress := by decide
  have hline : lcdLineAddress ≠ requestAddress := by decide
  unfold writeLcdControl
  dsimp only
  rw [requests_refreshLcd]
  split
  next h =>
    -- The display is switched off, and its position is reset: the line falls.
    have hoff : Lcd.switchedOn v = false := by simpa using (Bool.and_eq_true_iff.1 h).2
    have hcontrolOff : (({ bus.poke lcdControlAddress v with lcdDots := 0 }.poke
        lcdLineAddress 0).note .displayDisabled).lcd.isOn = false := by
      change Lcd.switchedOn (((bus.memory.write lcdControlAddress v).write lcdLineAddress 0).read
        lcdControlAddress) = false
      rwa [Memory.read_write_of_ne _ _ (by decide), Memory.read_write_self]
    rw [rises_of_off hcontrolOff, rises_of_off (d := { bus.lcd with control := v }) hoff,
      requests_note, requests_poke _ hline]
    exact requests_poke _ hcontrol
  next => rw [lcd_poke_control, requests_poke _ hcontrol]

theorem requests_writeLcdCompare (bus : Bus) (v : UInt8) :
    (bus.poke lcdCompareAddress v).refreshLcd.requests =
      if { bus.lcd with compare := v }.rises then bus.requests ||| InterruptSource.lcdStat.mask
      else bus.requests := by
  have hcompare : lcdCompareAddress ≠ requestAddress := by decide
  rw [requests_refreshLcd, lcd_poke_compare, requests_poke _ hcompare]

/-- The requests after a write: those before it, and the one that it raises. -/
theorem requests_writeByte (bus : Bus) {a : UInt16} (v : UInt8) (h : a ≠ requestAddress) :
    (bus.writeByte a v).requests = bus.requests ||| maskOf (bus.raised? a v) := by
  have hcovers := Target.covers_ofAddress a
  have hnone : bus.requests = bus.requests ||| maskOf none := UInt8.or_zero.symm
  rw [writeByte, requests_callHooks, raised?]
  generalize Target.ofAddress a = target at hcovers
  cases target with
  | serialControl => rw [writeTarget, requests_writeSerialControl, maskOf_ite]
  | lcdControl => rw [writeTarget, requests_writeLcdControl, maskOf_ite]
  | lcdStatus => rw [writeTarget, requests_writeLcdStatus, maskOf_ite]
  | lcdCompare =>
    obtain rfl : a = lcdCompareAddress := hcovers
    rw [writeTarget, requests_writeLcdCompare, maskOf_ite]
  | requests => exact absurd hcovers h
  | mirrored =>
    have hecho : a + echoOffset ≠ requestAddress := fun he => by
      obtain rfl : a = requestAddress - echoOffset := by rw [← he, UInt16.add_sub_cancel]
      exact absurd hcovers.2 (by decide)
    rw [writeTarget, requests_poke _ hecho, requests_poke v h]
    exact hnone
  | echo =>
    have hmirrored : a - echoOffset ≠ requestAddress := fun he => by
      obtain rfl : a = requestAddress + echoOffset := by rw [← he, UInt16.sub_add_cancel]
      exact absurd hcovers.1 (by decide)
    rw [writeTarget, requests_poke _ hmirrored, requests_poke v h]
    exact hnone
  | serialData =>
    rw [writeTarget, requests_poke _ h]
    exact hnone
  | joypad | plain =>
    rw [writeTarget, requests_poke _ h]
    exact hnone
  | divider | timerCounter | timerModulo | timerControl =>
    rw [writeTarget, requests_mapTimer]
    exact hnone
  | oamDma =>
    rw [writeTarget, requests_startDma]
    exact hnone
  | cartridge | unusable | lcdLine => exact hnone

/-- A write to the request register itself replaces its bits; those that do not exist are one. -/
theorem requests_writeByte_request (bus : Bus) (v : UInt8) :
    (bus.writeByte requestAddress v).requests = v ||| unusedRequestBits :=
  (requests_callHooks _ _ _).trans (Memory.read_write_self _ _ _)

/-! ### No request is withdrawn -/

theorem within_requests_writeByte (bus : Bus) {a : UInt16} (v : UInt8) (h : a ≠ requestAddress) :
    BitsWithin bus.requests (bus.writeByte a v).requests := by
  rw [requests_writeByte bus v h]
  exact .or _ _

theorem within_requests_request (bus : Bus) (bits : UInt8) :
    BitsWithin bus.requests (bus.request bits).requests := by
  rw [requests_request]
  exact .or _ _

theorem within_requests_passTime (n : Nat) (bus : Bus) :
    BitsWithin bus.requests (bus.passTime n).requests := by
  rw [passTime, requests_syncTimer, requests_withClockwork]
  exact Clockwork.within_requests_run n bus.clockwork

end Bus

end EightBit.GameBoy
