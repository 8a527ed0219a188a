import EightBit.Proofs.GameBoy.Calls

/-!
# Registers agree with the devices behind them

Reading a register is a look-up in memory. That this is right rests on every write and every T-cycle
putting back what it changed: whatever a driver does with a bus from power-on, memory shows the link
port, the timer and the position of the display, and the bits without a meaning read as one. The
mode and the coincidence are shown from the first call on that brings the status register up to
date.

## Main definitions

* `Timer.WellFormed`: the timer on its own.
* `Bus.ShowsSerial`, `Bus.ShowsTimer`, `Bus.UnusedBitsSet`: what memory shows.
* `Bus.RegistersAgree`: the registers against the devices, in terms of memory.
* `Bus.ShowsStatus`, `Bus.Call.BringsUpToDate`: the read-only bits of the status register, and the
  calls from which on they are right.

## Main results

* `Bus.registersAgree_run`: memory agrees with the devices in every state.
-/

namespace EightBit.GameBoy

open Sm83 (requestAddress joypadAddress)

/-! ### The timer on its own -/

namespace Timer

/-- The state of the timer is within its bounds, and the enable bit is that of the control
register. -/
structure WellFormed (t : Timer) : Prop where
  enabled : t.enabled = hasBit t.tac 2
  tac_le : t.tac ≤ 7
  overflowDelay_le : t.overflowDelay ≤ reloadDelay

namespace WellFormed

variable {t : Timer} (h : t.WellFormed)

include h

theorem countEdge (before : Bool) : (t.countEdge before).WellFormed := by
  unfold Timer.countEdge
  split
  · refine ⟨h.enabled, h.tac_le, ?_⟩
    change (if t.tima == 0xFF then reloadDelay else t.overflowDelay) ≤ reloadDelay
    split
    · exact Nat.le_refl _
    · exact h.overflowDelay_le
  · exact h

theorem settle : t.settle.WellFormed := by
  unfold Timer.settle
  split
  next => exact h
  next => exact ⟨h.enabled, h.tac_le, Nat.zero_le _⟩
  next n hdelay =>
    refine ⟨h.enabled, h.tac_le, ?_⟩
    have := h.overflowDelay_le
    rw [hdelay] at this
    exact Nat.le_of_succ_le this

/-- A T-cycle preserves the timer. -/
theorem tick : t.tick.WellFormed := by
  have hsettle := h.settle
  exact countEdge (t := { t.settle with counter := t.settle.counter + 1 })
    ⟨hsettle.enabled, hsettle.tac_le, hsettle.overflowDelay_le⟩ _

theorem iterate_tick (n : Nat) : (Timer.tick^[n] t).WellFormed := by
  induction n generalizing t with
  | zero => exact h
  | succ n ih =>
    rw [Function.iterate_succ_apply]
    exact ih h.tick

theorem writeControl (v : UInt8) : (t.writeControl v).WellFormed := by
  refine countEdge (t := { t with tac := v &&& 7, enabled := v &&& 4 != 0 }) ⟨?_, ?_, ?_⟩ _
  · have hmask : hasBit 7 2 = true := by decide
    change (v &&& 4 != 0) = hasBit (v &&& 7) 2
    rw [and_mask_bne_zero (k := 2) _ (by decide), hasBit_and, hmask, Bool.and_true]
  · exact UInt8.le_iff_toNat_le.2 (Nat.and_le_right (n := v.toNat))
  · exact h.overflowDelay_le

/-- A write preserves the timer. -/
theorem written (v : UInt8) (target : Target) : (t.written v target).WellFormed := by
  cases target with
  | divider =>
    exact countEdge (t := { t with counter := 0 }) ⟨h.enabled, h.tac_le, h.overflowDelay_le⟩ _
  | timerCounter => exact ⟨h.enabled, h.tac_le, Nat.zero_le _⟩
  | timerModulo => exact ⟨h.enabled, h.tac_le, h.overflowDelay_le⟩
  | timerControl => exact h.writeControl v
  | _ => exact h

end WellFormed

theorem wellFormed_powerOn : powerOn.WellFormed where
  enabled := by decide
  tac_le := by decide
  overflowDelay_le := Nat.zero_le _

end Timer

namespace Bus

/-! ### The link port in memory -/

/-- Memory shows the link port. -/
structure ShowsSerial (bus : Bus) : Prop where
  data : bus.peek serialDataAddress = bus.serial.sb
  control : bus.peek serialControlAddress = bus.serial.controlRead

theorem ShowsSerial.of_peek {b c : Bus} (h : b.ShowsSerial) (hserial : c.serial = b.serial)
    (hdata : c.peek serialDataAddress = b.peek serialDataAddress)
    (hcontrol : c.peek serialControlAddress = b.peek serialControlAddress) : c.ShowsSerial where
  data := by rw [hdata, hserial, h.data]
  control := by rw [hcontrol, hserial, h.control]

theorem ShowsSerial.writeByte {bus : Bus} (h : bus.ShowsSerial) (a : UInt16) (v : UInt8) :
    (bus.writeByte a v).ShowsSerial := by
  have hserial := bus.serial_writeByte a v
  have hregister {r : UInt16} := Target.eq_of_register? (a := a) (r := r)
  have hframe {r : UInt16} (hr : 0xFF00 ≤ r) (h : (Target.ofAddress a).touches r = false) :=
    bus.peek_writeByte_of_not_touches v hr h
  cases ht : Target.ofAddress a with
  | serialData =>
    rw [ht] at hserial hregister hframe
    obtain rfl : a = serialDataAddress := hregister rfl
    refine ⟨?_, ?_⟩
    · rw [hserial, Bus.writeByte, peek_callHooks]
      exact Memory.read_write_self _ _ _
    · rw [hserial, hframe (by decide) (by decide), h.control]
      rfl
  | serialControl =>
    rw [ht] at hserial hframe
    refine ⟨?_, ?_⟩
    · rw [hserial, hframe (by decide) (by decide), h.data]
      change _ = (bus.serial.writeControl v).sb
      unfold Serial.writeControl
      split <;> rfl
    · rw [hserial, Bus.writeByte, peek_callHooks, ht]
      exact Memory.read_write_self _ _ _
  | _ =>
    rw [ht] at hserial hframe
    exact h.of_peek hserial (hframe (by decide) (by decide)) (hframe (by decide) (by decide))

/-! ### Bits without a meaning -/

/-- The bits of the request and joypad registers that cannot be written read as one. -/
structure UnusedBitsSet (bus : Bus) : Prop where
  requests : ∀ k < 8, 5 ≤ k → hasBit bus.requests k = true
  joypad : ∀ k < 8, k < 4 ∨ 6 ≤ k → hasBit (bus.peek joypadAddress) k = true

theorem UnusedBitsSet.of_within {b c : Bus} (h : b.UnusedBitsSet)
    (hrequests : BitsWithin b.requests c.requests)
    (hjoypad : c.peek joypadAddress = b.peek joypadAddress) : c.UnusedBitsSet where
  requests k hk hlow := hrequests k (h.requests k hk hlow)
  joypad := by
    rw [hjoypad]
    exact h.joypad

theorem hasBit_requests_writeByte {bus : Bus} (h : bus.UnusedBitsSet) (a : UInt16) (v : UInt8)
    {k : Nat} (hk : k < 8) (hlow : 5 ≤ k) : hasBit (bus.writeByte a v).requests k = true := by
  by_cases ha : a = requestAddress
  · have hunused : ∀ k < 8, 5 ≤ k → hasBit unusedRequestBits k = true := by decide
    rw [ha, requests_writeByte_request, hasBit_or, hunused k hk hlow, Bool.or_true]
  · exact bus.within_requests_writeByte v ha k (h.requests k hk hlow)

theorem UnusedBitsSet.writeByte {bus : Bus} (h : bus.UnusedBitsSet) (a : UInt16) (v : UInt8) :
    (bus.writeByte a v).UnusedBitsSet := by
  refine ⟨fun k hk hlow => hasBit_requests_writeByte h a v hk hlow, fun k hk hunused => ?_⟩
  have hregister {r : UInt16} := Target.eq_of_register? (a := a) (r := r)
  have hframe {r : UInt16} (hr : 0xFF00 ≤ r) (h : (Target.ofAddress a).touches r = false) :=
    bus.peek_writeByte_of_not_touches v hr h
  cases ht : Target.ofAddress a with
  | joypad =>
    rw [ht] at hregister
    obtain rfl : a = joypadAddress := hregister rfl
    have hbits : ∀ k < 8, k < 4 ∨ 6 ≤ k → hasBit 0xC0 k = true ∨ hasBit 0x0F k = true := by decide
    have hread : (bus.writeByte joypadAddress v).peek joypadAddress =
        0xC0 ||| (v &&& 0x30) ||| 0x0F := by
      rw [Bus.writeByte, peek_callHooks]
      exact Memory.read_write_self _ _ _
    rw [hread, hasBit_or, hasBit_or]
    rcases hbits k hk hunused with h | h <;> rw [h] <;> simp
  | _ =>
    rw [ht] at hframe
    rw [hframe (by decide) (by decide)]
    exact h.joypad k hk hunused

/-! ### All of it together -/

/-- What every call preserves: memory shows the devices, and each is well-formed on its own. -/
structure Consistent (bus : Bus) : Prop where
  serial : bus.ShowsSerial
  timer : bus.ShowsTimer
  unusedBits : bus.UnusedBitsSet
  wellFormed_timer : bus.timer.WellFormed
  wellFormed_lcd : bus.lcd.WellFormed

theorem consistent_powerOn (ram : RamBytes) (journal : Journal) :
    (powerOn ram journal).Consistent where
  serial := by
    refine ⟨?_, ?_⟩ <;>
      rw [powerOn, peek_syncTimer_of_ne _ (by decide) (by decide) (by decide) (by decide)]
    · exact (Memory.read_write_of_ne _ _ (by decide)).trans (Memory.read_write_self _ _ _)
    · exact Memory.read_write_self _ _ _
  timer := showsTimer_powerOn ram journal
  unusedBits := by
    refine ⟨?_, ?_⟩
    · rw [requests_powerOn]
      decide
    · rw [peek_powerOn ram journal (v := 0xCF) (by decide)]
      decide
  wellFormed_timer := Timer.wellFormed_powerOn
  wellFormed_lcd := wellFormed_lcd_powerOn ram journal

namespace Consistent

variable {bus : Bus} (h : bus.Consistent)

include h

theorem writeByte (a : UInt16) (v : UInt8) : (bus.writeByte a v).Consistent where
  serial := h.serial.writeByte a v
  timer := h.timer.writeByte a v
  unusedBits := h.unusedBits.writeByte a v
  wellFormed_timer := by
    rw [timer_writeByte]
    exact h.wellFormed_timer.written v _
  wellFormed_lcd := by
    rw [lcd_writeByte]
    exact h.wellFormed_lcd.written v _

theorem passTime (n : Nat) : (bus.passTime n).Consistent where
  serial := h.serial.of_peek rfl (peek_passTime_of_not_mem n bus (by decide))
    (peek_passTime_of_not_mem n bus (by decide))
  timer := showsTimer_passTime n bus
  unusedBits := h.unusedBits.of_within (within_requests_passTime n bus)
    (peek_passTime_of_not_mem n bus (by decide))
  wellFormed_timer := by
    rw [timer_passTime]
    exact h.wellFormed_timer.iterate_tick n
  wellFormed_lcd := by
    rw [lcd_passTime]
    exact h.wellFormed_lcd.iterate_dot n

/-- What leaves the devices and the registers alone leaves the bus consistent. -/
theorem of_peek {c : Bus} (hserial : c.serial = bus.serial) (htimer : c.timer = bus.timer)
    (hlcd : c.lcd = bus.lcd) (hrequests : BitsWithin bus.requests c.requests)
    (hpeek : ∀ r, 0xFF00 ≤ r → r ≠ requestAddress → c.peek r = bus.peek r) : c.Consistent where
  serial := h.serial.of_peek hserial (hpeek _ (by decide) (by decide))
    (hpeek _ (by decide) (by decide))
  timer := h.timer.of_peek htimer (hpeek _ (by decide) (by decide))
    (hpeek _ (by decide) (by decide)) (hpeek _ (by decide) (by decide))
    (hpeek _ (by decide) (by decide))
  unusedBits := h.unusedBits.of_within hrequests (hpeek _ (by decide) (by decide))
  wellFormed_timer := by
    rw [htimer]
    exact h.wellFormed_timer
  wellFormed_lcd := by
    rw [hlcd]
    exact h.wellFormed_lcd

theorem note (n : Notice) : (bus.note n).Consistent :=
  h.of_peek rfl rfl rfl (.refl _) fun _ _ _ => rfl

theorem request (bits : UInt8) : (bus.request bits).Consistent :=
  h.of_peek rfl rfl (bus.lcd_request bits) (within_requests_request bus bits)
    fun _ _ hr => peek_poke_of_ne _ _ (Ne.symm hr)

theorem insert (image : List UInt8) : (bus.insert image).Consistent := by
  have hpeek (r : UInt16) (hr : 0xFF00 ≤ r) : (bus.insert image).peek r = bus.peek r :=
    bus.peek_insert_of_le image (UInt16.le_trans (by decide) hr)
  have hrequests : (bus.insert image).requests = bus.requests := hpeek _ (by decide)
  refine h.of_peek ?_ ?_ (bus.lcd_insert image) ?_ fun r hr _ => hpeek r hr
  · rw [insert_eq]
  · rw [insert_eq]
  · rw [hrequests]
    exact .refl _

/-- A call preserves the agreement. -/
theorem apply (c : Call) : (bus.apply c).Consistent := by
  cases c with
  | write a v => exact h.writeByte a v
  | tick n => exact h.passTime n
  | request i => exact h.request i.bits
  | insert image => exact h.insert image
  | read | hook =>
    exact h.of_peek rfl rfl rfl (.refl _) fun _ _ _ => rfl

end Consistent

/-- Memory and the devices after any number of calls. -/
theorem consistent_run (ram : RamBytes) (journal : Journal) (cs : List Call) :
    ((powerOn ram journal).run cs).Consistent :=
  run_induction (consistent_powerOn ram journal) (fun _ c h => h.apply c) cs

/-! ### The status register -/

/-- The read-only bits of the status register show the mode and the coincidence. -/
structure ShowsStatus (bus : Bus) : Prop where
  mode : bus.peek lcdStatusAddress &&& 3 = bus.lcd.mode
  coincidence : hasBit (bus.peek lcdStatusAddress) 2 =
    (bus.peek lcdLineAddress == bus.peek lcdCompareAddress)

theorem showsStatus_of_upToDate {bus : Bus} (h : bus.lcd.UpToDate) : bus.ShowsStatus where
  mode := (congrArg (· &&& 3) h).trans (Lcd.statusRead_and_three _)
  coincidence := (congrArg (hasBit · 2) h).trans (Lcd.hasBit_statusRead_two _)

/-- Calls that bring the status register up to date: time, and a write to a register of the display
that decides what it shows. -/
def Call.BringsUpToDate : Call → Prop
  | .tick n => 0 < n
  | .write a _ => a = lcdControlAddress ∨ a = lcdStatusAddress ∨ a = lcdCompareAddress
  | _ => False

theorem upToDate_apply {bus : Bus} (h : bus.lcd.WellFormed) {c : Call}
    (hc : bus.lcd.UpToDate ∨ c.BringsUpToDate) : (bus.apply c).lcd.UpToDate := by
  rcases hc with hd | hc
  · exact lcd_apply_induction hd (Lcd.upToDate_written hd)
      (fun _ => h.upToDate_iterate_dot (.inl hd)) c
  cases c with
  | tick n =>
    change (bus.passTime n).lcd.UpToDate
    rw [lcd_passTime]
    exact h.upToDate_iterate_dot (.inr hc)
  | write a v =>
    change (bus.writeByte a v).lcd.UpToDate
    rw [lcd_writeByte]
    rcases hc with rfl | rfl | rfl
    · exact bus.lcd.upToDate_writeControl v
    · exact Lcd.upToDate_refresh _
    · exact Lcd.upToDate_refresh _
  | read | request | insert | hook => exact absurd hc id

/-- From the first call on that brings it up to date, the status register stays so. -/
theorem upToDate_run {bus : Bus} (h : bus.lcd.WellFormed) (cs : List Call)
    (hcs : bus.lcd.UpToDate ∨ ∃ c ∈ cs, c.BringsUpToDate) : (bus.run cs).lcd.UpToDate := by
  induction cs generalizing bus with
  | nil => exact hcs.resolve_right fun ⟨_, hmem, _⟩ => absurd hmem List.not_mem_nil
  | cons c cs ih =>
    rw [run_cons]
    refine ih (wellFormed_lcd_apply h c) ?_
    rcases hcs with hd | ⟨e, hmem, he⟩
    · exact .inl (upToDate_apply h (.inl hd))
    · rcases List.mem_cons.1 hmem with rfl | htail
      · exact .inl (upToDate_apply h (.inr he))
      · exact .inr ⟨e, htail, he⟩

/-! ### The registers -/

/-- The registers against the devices behind them. -/
structure RegistersAgree (bus : Bus) : Prop where
  serialData : bus.peek serialDataAddress = bus.serial.sb
  serialControl : bus.peek serialControlAddress = bus.serial.sc ||| 0x7E
  divider : bus.peek dividerAddress = hiByte bus.timer.counter
  timerCounter : bus.peek timerCounterAddress = bus.timer.tima
  timerModulo : bus.peek timerModuloAddress = bus.timer.tma
  timerControl : bus.peek timerControlAddress = bus.timer.tac ||| 0xF8
  requests : ∀ k < 8, 5 ≤ k → hasBit (bus.peek requestAddress) k = true
  joypad : ∀ k < 8, k < 4 ∨ 6 ≤ k → hasBit (bus.peek joypadAddress) k = true
  dots_lt : bus.lcdDots < 70224
  line : (bus.peek lcdLineAddress).toNat = bus.lcdDots / 456
  status : hasBit (bus.peek lcdStatusAddress) 7 = true
  off : hasBit (bus.peek lcdControlAddress) 7 = false →
    bus.lcdDots = 0 ∧ bus.peek lcdLineAddress = 0 ∧ bus.statLine = false
  enabled : bus.timer.enabled = hasBit bus.timer.tac 2
  tac_le : bus.timer.tac ≤ 7
  overflowDelay_le : bus.timer.overflowDelay ≤ 4

theorem Consistent.registersAgree {bus : Bus} (h : bus.Consistent) : bus.RegistersAgree where
  serialData := h.serial.data
  serialControl := h.serial.control
  divider := h.timer.divider
  timerCounter := h.timer.counter
  timerModulo := h.timer.modulo
  timerControl := h.timer.control
  requests := h.unusedBits.requests
  joypad := h.unusedBits.joypad
  dots_lt := h.wellFormed_lcd.dots_lt
  line := h.wellFormed_lcd.line
  status := h.wellFormed_lcd.top
  off hoff := by
    have hoff : bus.lcd.isOn = false := (Lcd.isOn_eq _).trans hoff
    have hrest := h.wellFormed_lcd.rest_eq_self hoff
    exact ⟨h.wellFormed_lcd.off hoff, (congrArg Lcd.line hrest).symm,
      (congrArg Lcd.statLine hrest).symm⟩
  enabled := h.wellFormed_timer.enabled
  tac_le := h.wellFormed_timer.tac_le
  overflowDelay_le := h.wellFormed_timer.overflowDelay_le

/-- Whatever is done with a bus from power-on, its registers agree with the devices behind them, and
once the status register has been brought up to date it shows the mode and the coincidence. -/
theorem registersAgree_run (ram : RamBytes) (journal : Journal) (cs : List Call) :
    ((powerOn ram journal).run cs).RegistersAgree ∧
      ((∃ c ∈ cs, c.BringsUpToDate) → ((powerOn ram journal).run cs).ShowsStatus) := by
  refine ⟨(consistent_run ram journal cs).registersAgree, fun hcs => ?_⟩
  exact showsStatus_of_upToDate (upToDate_run (wellFormed_lcd_powerOn ram journal) cs (.inr hcs))

theorem showsStatus_tick : ((powerOn .zeroed .silent).run [.tick 1]).ShowsStatus :=
  (registersAgree_run .zeroed .silent [.tick 1]).2 ⟨.tick 1, List.mem_singleton_self _, Nat.one_pos⟩

end Bus

end EightBit.GameBoy
