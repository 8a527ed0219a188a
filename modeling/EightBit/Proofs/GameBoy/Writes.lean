import EightBit.Proofs.GameBoy.Devices

/-!
# The bus and its devices

The bus shows the devices in memory. A write acts on each device as it does on the device alone, and
time moves each on as it does alone; what memory does not show of them is left as it was.

## Main definitions

* `Target.touches`: the registers that a write to a target may change.
* `Target.Reaches`: the memory below the registers that it may change besides.

## Main results

* `Bus.peek_writeByte_of_not_touches`: registers that a write leaves alone.
* `Bus.lcd_writeByte`, `Bus.timer_writeByte`, `Bus.serial_writeByte`: what a write does to a device.
* `Bus.lcd_passTime`, `Bus.timer_passTime`: what time does to a device.
* `Bus.peek_passTime_of_not_mem`: what time leaves alone in memory.
* `Bus.passTime_add`: time may be split in any way.
-/

namespace EightBit.GameBoy

open Sm83 (requestAddress InterruptSource)

/-! ### Registers that a write leaves alone -/

namespace Target

/-- Whether a write that reaches a target may change the register at an address. -/
def touches (target : Target) (register : UInt16) : Bool :=
  ofAddress register == target ||
    match target with
    | .serialControl => register == requestAddress
    | .divider | .timerCounter | .timerModulo | .timerControl =>
      register == dividerAddress || register == timerCounterAddress ||
        register == timerModuloAddress || register == timerControlAddress
    | .lcdControl | .lcdStatus | .lcdCompare =>
      register == requestAddress || register == lcdStatusAddress || register == lcdLineAddress
    | _ => false

/-- Whether a write to an address that reaches a target may change the byte at `r` besides: the
second copy of work memory, or object memory. -/
def Reaches (a r : UInt16) : Target → Prop
  | .mirrored => a + echoOffset = r
  | .echo => a - echoOffset = r
  | .oamDma => (r - oamStart).toNat < oamSize
  | _ => False

theorem ne_of_touches {target : Target} {c r : UInt16} (hc : target.touches c = true)
    (hr : target.touches r = false) : c ≠ r := by
  rintro rfl
  exact Bool.false_ne_true (hr.symm.trans hc)

end Target

namespace Bus

/-! ### What does not reach the devices -/

@[simp] theorem peek_note (bus : Bus) (n : Notice) (r : UInt16) :
    (bus.note n).peek r = bus.peek r := rfl

theorem peek_poke_of_ne (bus : Bus) {a r : UInt16} (v : UInt8) (h : a ≠ r) :
    (bus.poke a v).peek r = bus.peek r :=
  Memory.read_write_of_ne _ _ h

theorem peek_withClockwork (bus : Bus) (c : Clockwork) (r : UInt16) :
    (bus.withClockwork c).peek r =
      if lcdLineAddress = r then c.lcd.line
      else if lcdStatusAddress = r then c.lcd.status
      else if requestAddress = r then c.requests else bus.peek r := by
  simp only [withClockwork, peek, Memory.read_write]

theorem peek_syncTimer (bus : Bus) (r : UInt16) :
    bus.syncTimer.peek r =
      if timerControlAddress = r then bus.timer.controlRead
      else if timerModuloAddress = r then bus.timer.tma
      else if timerCounterAddress = r then bus.timer.tima
      else if dividerAddress = r then bus.timer.divider else bus.peek r := by
  simp only [syncTimer, mapMemory, peek, Memory.read_write]

@[simp] theorem peek_callHooks (bus : Bus) (a r : UInt16) (v : UInt8) :
    (bus.callHooks a v).peek r = bus.peek r := by
  rw [peek, memory_callHooks]
  rfl

theorem peek_syncTimer_of_ne (bus : Bus) {r : UInt16} (hdivider : dividerAddress ≠ r)
    (hcounter : timerCounterAddress ≠ r) (hmodulo : timerModuloAddress ≠ r)
    (hcontrol : timerControlAddress ≠ r) : bus.syncTimer.peek r = bus.peek r := by
  rw [peek_syncTimer, if_neg hcontrol, if_neg hmodulo, if_neg hcounter, if_neg hdivider]

theorem peek_refreshLcd (bus : Bus) {r : UInt16} (hrequest : requestAddress ≠ r)
    (hstatus : lcdStatusAddress ≠ r) (hline : lcdLineAddress ≠ r) :
    bus.refreshLcd.peek r = bus.peek r := by
  rw [refreshLcd, peek_withClockwork, if_neg hline, if_neg hstatus, if_neg hrequest]

theorem peek_writeLcdControl (bus : Bus) {r : UInt16} (v : UInt8) (hcontrol : lcdControlAddress ≠ r)
    (hrequest : requestAddress ≠ r) (hstatus : lcdStatusAddress ≠ r) (hline : lcdLineAddress ≠ r) :
    (bus.writeLcdControl v).peek r = bus.peek r := by
  unfold writeLcdControl
  dsimp only
  rw [peek_refreshLcd _ hrequest hstatus hline]
  split
  · rw [peek_note, peek_poke_of_ne _ _ hline]
    exact peek_poke_of_ne _ _ hcontrol
  · exact peek_poke_of_ne _ _ hcontrol

theorem peek_writeSerialControl (bus : Bus) {r : UInt16} (v : UInt8)
    (hcontrol : serialControlAddress ≠ r) (hrequest : requestAddress ≠ r) :
    (bus.writeSerialControl v).peek r = bus.peek r := by
  unfold writeSerialControl
  dsimp only
  rw [peek_poke_of_ne _ _ hcontrol]
  split
  · exact peek_poke_of_ne _ _ hrequest
  · rfl

/-- The copying to object memory reaches one register besides, which shows the page copied. -/
theorem peek_startDma (bus : Bus) {r : UInt16} (v : UInt8)
    (houtside : oamSize ≤ (r - oamStart).toNat) (hdma : oamDmaAddress ≠ r) :
    (bus.startDma v).peek r = bus.peek r :=
  calc (bus.startDma v).peek r
      = (bus.memory.copy (v.toUInt16 <<< 8) oamStart oamSize).read r :=
        Memory.read_write_of_ne _ _ hdma
    _ = bus.peek r := Memory.read_copy_of_outside _ _ _ houtside

/-- A write changes no byte but those that its target reaches and touches. -/
theorem peek_writeByte_of_not_reaches (bus : Bus) {a r : UInt16} (v : UInt8)
    (hreaches : ¬(Target.ofAddress a).Reaches a r)
    (htouches : (Target.ofAddress a).touches r = false) :
    (bus.writeByte a v).peek r = bus.peek r := by
  have hne : a ≠ r := Target.ne_of_touches (by simp [Target.touches]) htouches
  rw [writeByte, peek_callHooks]
  generalize Target.ofAddress a = target at hreaches htouches
  -- The registers that the target touches are not the one looked at.
  have hat (c : UInt16) (hc : target.touches c = true) : c ≠ r := Target.ne_of_touches hc htouches
  cases target with
  | mirrored | echo => rw [writeTarget, peek_poke_of_ne _ _ hreaches, peek_poke_of_ne _ _ hne]
  | serialControl =>
    exact bus.peek_writeSerialControl v (hat _ (by decide)) (hat _ (by decide))
  | lcdControl =>
    exact bus.peek_writeLcdControl v (hat _ (by decide)) (hat _ (by decide)) (hat _ (by decide))
      (hat _ (by decide))
  | lcdStatus =>
    exact (peek_refreshLcd _ (hat _ (by decide)) (hat _ (by decide)) (hat _ (by decide))).trans
      (peek_poke_of_ne _ _ (hat _ (by decide)))
  | lcdCompare =>
    exact (peek_refreshLcd _ (hat _ (by decide)) (hat _ (by decide)) (hat _ (by decide))).trans
      (peek_poke_of_ne _ _ hne)
  | divider | timerCounter | timerModulo | timerControl =>
    exact peek_syncTimer_of_ne _ (hat _ (by decide)) (hat _ (by decide)) (hat _ (by decide))
      (hat _ (by decide))
  | oamDma => exact bus.peek_startDma v (Nat.not_lt.1 hreaches) (hat _ (by decide))
  | joypad | requests | plain => exact bus.peek_poke_of_ne _ hne
  | serialData => exact peek_poke_of_ne _ _ hne
  | cartridge | unusable | lcdLine => rfl

/-- A write changes no register but those that its target touches. -/
theorem peek_writeByte_of_not_touches (bus : Bus) {a r : UInt16} (v : UInt8) (hr : 0xFF00 ≤ r)
    (h : (Target.ofAddress a).touches r = false) : (bus.writeByte a v).peek r = bus.peek r := by
  refine bus.peek_writeByte_of_not_reaches v ?_ h
  have hcovers := Target.covers_ofAddress a
  generalize Target.ofAddress a = target at hcovers
  cases target with
  | mirrored =>
    obtain ⟨hle, hlt⟩ := hcovers
    rw [Target.Reaches, echoOffset]
    grind
  | echo =>
    obtain ⟨hle, hlt⟩ := hcovers
    rw [Target.Reaches, echoOffset]
    grind
  | oamDma =>
    have hle : 0xFF00 ≤ r.toNat := hr
    have hlt := r.toNat_lt
    change ¬(r - 0xFE00).toNat < 0xA0
    rw [UInt16.toNat_sub]
    change ¬(2 ^ 16 - 0xFE00 + r.toNat) % 2 ^ 16 < 0xA0
    omega
  | _ => exact id

/-! ### What reaches the devices -/

/-- The display is what four registers and the state behind them say. -/
theorem lcd_eq {b c : Bus} (hcontrol : b.peek lcdControlAddress = c.peek lcdControlAddress)
    (hstatus : b.peek lcdStatusAddress = c.peek lcdStatusAddress)
    (hline : b.peek lcdLineAddress = c.peek lcdLineAddress)
    (hcompare : b.peek lcdCompareAddress = c.peek lcdCompareAddress)
    (hdots : b.lcdDots = c.lcdDots) (hstat : b.statLine = c.statLine)
    (hframes : b.frames = c.frames) : b.lcd = c.lcd := by
  rw [lcd, lcd, hcontrol, hstatus, hline, hcompare, hdots, hstat, hframes]

theorem lcd_refreshLcd (bus : Bus) : bus.refreshLcd.lcd = bus.lcd.refresh := by
  have h := clockwork_withClockwork bus bus.clockwork.refresh
    (by rw [Clockwork.lcd_refresh]; rfl) (by rw [Clockwork.lcd_refresh]; rfl)
  exact (congrArg Clockwork.lcd h).trans (Clockwork.lcd_refresh _)

@[simp] theorem lcd_syncTimer (bus : Bus) : bus.syncTimer.lcd = bus.lcd := by
  have hpeek (r : UInt16) (hr : timerControlAddress < r) : bus.syncTimer.peek r = bus.peek r := by
    refine bus.peek_syncTimer_of_ne ?_ ?_ ?_ ?_ <;> rintro rfl <;> exact absurd hr (by decide)
  exact lcd_eq (hpeek _ (by decide)) (hpeek _ (by decide)) (hpeek _ (by decide))
    (hpeek _ (by decide)) rfl rfl rfl

theorem lcd_writeLcdControl (bus : Bus) (v : UInt8) :
    (bus.writeLcdControl v).lcd = bus.lcd.writeControl v := by
  unfold writeLcdControl Lcd.writeControl
  dsimp only
  rw [lcd_refreshLcd, apply_ite lcd, ← apply_ite Lcd.refresh]
  congr 1
  refine if_congr Iff.rfl ?_ (bus.lcd_poke_control v)
  simp only [lcd, note, poke, mapMemory, peek, Memory.read_write]
  rfl

/-! #### What the writes of each device leave alone -/

theorem writeSerialControl_eq (bus : Bus) (v : UInt8) :
    bus.writeSerialControl v = { bus with
      memory := (bus.writeSerialControl v).memory
      serial := bus.serial.writeControl v } := by
  unfold writeSerialControl
  dsimp only
  split <;> rfl

theorem startDma_eq (bus : Bus) (v : UInt8) :
    bus.startDma v = { bus with
      memory := (bus.startDma v).memory
      journal := (bus.startDma v).journal } := by
  simp only [startDma, mapMemory, note]

theorem refreshLcd_eq (bus : Bus) :
    bus.refreshLcd = { bus with
      memory := bus.refreshLcd.memory
      statLine := bus.lcd.sourceActive
      journal := bus.refreshLcd.journal } := by
  rw [refreshLcd, withClockwork, Clockwork.lcd_refresh, Clockwork.timer_refresh]
  rfl

theorem writeLcdControl_eq (bus : Bus) (v : UInt8) :
    bus.writeLcdControl v = { bus with
      memory := (bus.writeLcdControl v).memory
      lcdDots := (bus.writeLcdControl v).lcdDots
      statLine := (bus.writeLcdControl v).statLine
      journal := (bus.writeLcdControl v).journal } := by
  unfold writeLcdControl
  dsimp only
  split
  · rw [refreshLcd_eq]
    rfl
  · rw [refreshLcd_eq]
    rfl

theorem callHooks_eq (bus : Bus) (a : UInt16) (v : UInt8) :
    bus.callHooks a v = { bus with hookCalls := (bus.callHooks a v).hookCalls } := by
  unfold callHooks
  split <;> rfl

@[simp] theorem lcd_callHooks (bus : Bus) (a : UInt16) (v : UInt8) :
    (bus.callHooks a v).lcd = bus.lcd := by
  rw [callHooks_eq]
  rfl

/-! #### What a write does to each device -/

/-- A write that touches no register of the display leaves the display alone, if it leaves alone
what memory does not show of it. -/
theorem lcd_writeByte_of_not_touches (bus : Bus) {a : UInt16} (v : UInt8) {target : Target}
    (ht : Target.ofAddress a = target) (hcontrol : target.touches lcdControlAddress = false)
    (hstatus : target.touches lcdStatusAddress = false)
    (hline : target.touches lcdLineAddress = false)
    (hcompare : target.touches lcdCompareAddress = false)
    (hdots : (bus.writeTarget target a v).lcdDots = bus.lcdDots)
    (hstat : (bus.writeTarget target a v).statLine = bus.statLine)
    (hframes : (bus.writeTarget target a v).frames = bus.frames) :
    (bus.writeByte a v).lcd = bus.lcd := by
  subst ht
  refine lcd_eq (bus.peek_writeByte_of_not_touches v (by decide) hcontrol)
    (bus.peek_writeByte_of_not_touches v (by decide) hstatus)
    (bus.peek_writeByte_of_not_touches v (by decide) hline)
    (bus.peek_writeByte_of_not_touches v (by decide) hcompare) ?_ ?_ ?_ <;>
    rw [writeByte, callHooks_eq]
  · exact hdots
  · exact hstat
  · exact hframes

/-- A write acts on the display as it does on the display alone. -/
theorem lcd_writeByte (bus : Bus) (a : UInt16) (v : UInt8) :
    (bus.writeByte a v).lcd = bus.lcd.written v (.ofAddress a) := by
  have hcovers := Target.covers_ofAddress a
  cases ht : Target.ofAddress a with
  | lcdControl =>
    rw [writeByte, lcd_callHooks, ht, writeTarget, lcd_writeLcdControl]
    rfl
  | lcdStatus =>
    rw [writeByte, lcd_callHooks, ht, writeTarget, writeLcdStatus, lcd_refreshLcd, lcd_poke_status]
    rfl
  | lcdCompare =>
    rw [ht] at hcovers
    obtain rfl : a = lcdCompareAddress := hcovers
    rw [writeByte, lcd_callHooks, ht, writeTarget, lcd_refreshLcd, lcd_poke_compare]
    rfl
  | cartridge | unusable | lcdLine =>
    rw [writeByte, lcd_callHooks, ht]
    rfl
  | serialControl =>
    refine bus.lcd_writeByte_of_not_touches v ht (by decide) (by decide) (by decide) (by decide)
      ?_ ?_ ?_ <;> rw [writeTarget, writeSerialControl_eq]
  | oamDma =>
    refine bus.lcd_writeByte_of_not_touches v ht (by decide) (by decide) (by decide) (by decide)
      ?_ ?_ ?_ <;> rw [writeTarget, startDma_eq]
  | _ =>
    exact bus.lcd_writeByte_of_not_touches v ht (by decide) (by decide) (by decide) (by decide)
      rfl rfl rfl

/-- A write acts on the timer and on the link port as it does on each of them alone. -/
theorem timer_and_serial_writeByte (bus : Bus) (a : UInt16) (v : UInt8) :
    (bus.writeByte a v).timer = bus.timer.written v (.ofAddress a) ∧
      (bus.writeByte a v).serial = bus.serial.written v (.ofAddress a) := by
  rw [writeByte, callHooks_eq]
  cases Target.ofAddress a with
  | serialControl =>
    rw [writeTarget, writeSerialControl_eq]
    exact ⟨rfl, rfl⟩
  | lcdControl =>
    rw [writeTarget, writeLcdControl_eq]
    exact ⟨rfl, rfl⟩
  | lcdStatus =>
    rw [writeTarget, writeLcdStatus, refreshLcd_eq]
    exact ⟨rfl, rfl⟩
  | lcdCompare =>
    rw [writeTarget, refreshLcd_eq]
    exact ⟨rfl, rfl⟩
  | oamDma =>
    rw [writeTarget, startDma_eq]
    exact ⟨rfl, rfl⟩
  | _ => exact ⟨rfl, rfl⟩

theorem timer_writeByte (bus : Bus) (a : UInt16) (v : UInt8) :
    (bus.writeByte a v).timer = bus.timer.written v (.ofAddress a) :=
  (bus.timer_and_serial_writeByte a v).1

theorem serial_writeByte (bus : Bus) (a : UInt16) (v : UInt8) :
    (bus.writeByte a v).serial = bus.serial.written v (.ofAddress a) :=
  (bus.timer_and_serial_writeByte a v).2

/-! ### Time -/

/-- The registers that time may change. -/
def clockedRegisters : List UInt16 :=
  [timerControlAddress, timerModuloAddress, timerCounterAddress, dividerAddress, lcdLineAddress,
    lcdStatusAddress, requestAddress]

/-- The clocked devices put back, with the timer shown, leave the other registers alone. -/
theorem peek_syncTimer_withClockwork_of_not_mem (bus : Bus) (c : Clockwork) {r : UInt16}
    (h : r ∉ clockedRegisters) : (bus.withClockwork c).syncTimer.peek r = bus.peek r := by
  simp only [clockedRegisters, List.mem_cons, List.not_mem_nil, or_false, not_or] at h
  obtain ⟨hcontrol, hmodulo, hcounter, hdivider, hline, hstatus, hrequest⟩ := h
  rw [peek_syncTimer_of_ne _ (Ne.symm hdivider) (Ne.symm hcounter) (Ne.symm hmodulo)
      (Ne.symm hcontrol),
    peek_withClockwork, if_neg (Ne.symm hline), if_neg (Ne.symm hstatus),
    if_neg (Ne.symm hrequest)]

/-- What the clocked registers show depends on the clocked devices alone. -/
theorem peek_syncTimer_withClockwork_congr (b d : Bus) (c : Clockwork) {r : UInt16}
    (h : r ∈ clockedRegisters) :
    (b.withClockwork c).syncTimer.peek r = (d.withClockwork c).syncTimer.peek r := by
  simp only [clockedRegisters, List.mem_cons, List.not_mem_nil, or_false] at h
  simp only [peek_syncTimer, peek_withClockwork]
  rcases h with rfl | rfl | rfl | rfl | rfl | rfl | rfl <;> rfl

/-- The clocked devices after time has passed. -/
theorem clockwork_passTime (n : Nat) (bus : Bus) :
    (bus.passTime n).clockwork = bus.clockwork.run n := by
  have hput : (bus.withClockwork (bus.clockwork.run n)).clockwork = bus.clockwork.run n :=
    clockwork_withClockwork bus _
      (by rw [Clockwork.lcd_run, Lcd.control_iterate_dot]; rfl)
      (by rw [Clockwork.lcd_run, Lcd.compare_iterate_dot]; rfl)
  rw [passTime, clockwork, lcd_syncTimer, ← requests, requests_syncTimer]
  exact hput

theorem lcd_passTime (n : Nat) (bus : Bus) : (bus.passTime n).lcd = Lcd.dot^[n] bus.lcd :=
  (congrArg Clockwork.lcd (clockwork_passTime n bus)).trans (Clockwork.lcd_run n _)

theorem timer_passTime (n : Nat) (bus : Bus) : (bus.passTime n).timer = Timer.tick^[n] bus.timer :=
  Clockwork.timer_run n _

theorem requests_passTime (n : Nat) (bus : Bus) :
    (bus.passTime n).requests = (bus.clockwork.run n).requests :=
  congrArg Clockwork.requests (clockwork_passTime n bus)

/-- Time leaves all memory alone but the clocked registers. -/
theorem peek_passTime_of_not_mem (n : Nat) (bus : Bus) {r : UInt16} (h : r ∉ clockedRegisters) :
    (bus.passTime n).peek r = bus.peek r :=
  peek_syncTimer_withClockwork_of_not_mem _ _ h

/-- Time may be split in any way. -/
theorem passTime_add (m n : Nat) (bus : Bus) :
    bus.passTime (m + n) = (bus.passTime m).passTime n := by
  have hclockwork : (bus.passTime m).clockwork.run n = bus.clockwork.run (m + n) := by
    rw [clockwork_passTime, Clockwork.run_add]
  rw [passTime, passTime, hclockwork]
  -- Both have the same devices put back; what is not shown of them was left alone before.
  have hmemory : ((bus.withClockwork (bus.clockwork.run (m + n))).syncTimer).memory =
      (((bus.passTime m).withClockwork (bus.clockwork.run (m + n))).syncTimer).memory := by
    refine Memory.ext fun r => ?_
    by_cases hr : r ∈ clockedRegisters
    · exact peek_syncTimer_withClockwork_congr _ _ _ hr
    · exact (peek_syncTimer_withClockwork_of_not_mem _ _ hr).trans
        ((peek_passTime_of_not_mem m bus hr).symm.trans
          (peek_syncTimer_withClockwork_of_not_mem _ _ hr).symm)
  calc (bus.withClockwork (bus.clockwork.run (m + n))).syncTimer
      = { ((bus.passTime m).withClockwork (bus.clockwork.run (m + n))).syncTimer with
          memory := ((bus.withClockwork (bus.clockwork.run (m + n))).syncTimer).memory } := rfl
    _ = ((bus.passTime m).withClockwork (bus.clockwork.run (m + n))).syncTimer := by rw [hmemory]

/-! ### The timer in memory -/

/-- Memory shows the timer. -/
structure ShowsTimer (bus : Bus) : Prop where
  divider : bus.peek dividerAddress = bus.timer.divider
  counter : bus.peek timerCounterAddress = bus.timer.tima
  modulo : bus.peek timerModuloAddress = bus.timer.tma
  control : bus.peek timerControlAddress = bus.timer.controlRead

theorem showsTimer_syncTimer (bus : Bus) : bus.syncTimer.ShowsTimer := by
  constructor <;> exact bus.peek_syncTimer _

theorem showsTimer_passTime (n : Nat) (bus : Bus) : (bus.passTime n).ShowsTimer :=
  showsTimer_syncTimer _

namespace ShowsTimer

/-- What leaves the timer and its registers alone leaves the timer shown. -/
theorem of_peek {b c : Bus} (h : b.ShowsTimer) (htimer : c.timer = b.timer)
    (hdivider : c.peek dividerAddress = b.peek dividerAddress)
    (hcounter : c.peek timerCounterAddress = b.peek timerCounterAddress)
    (hmodulo : c.peek timerModuloAddress = b.peek timerModuloAddress)
    (hcontrol : c.peek timerControlAddress = b.peek timerControlAddress) : c.ShowsTimer where
  divider := by rw [hdivider, htimer, h.divider]
  counter := by rw [hcounter, htimer, h.counter]
  modulo := by rw [hmodulo, htimer, h.modulo]
  control := by rw [hcontrol, htimer, h.control]

variable {bus : Bus} (h : bus.ShowsTimer)

include h

theorem callHooks (a : UInt16) (v : UInt8) : (bus.callHooks a v).ShowsTimer := by
  refine h.of_peek ?_ (bus.peek_callHooks a _ v) (bus.peek_callHooks a _ v)
    (bus.peek_callHooks a _ v) (bus.peek_callHooks a _ v)
  rw [callHooks_eq]

/-- A write leaves the timer shown. -/
theorem writeByte (a : UInt16) (v : UInt8) : (bus.writeByte a v).ShowsTimer := by
  have htimer := bus.timer_writeByte a v
  have hframe {r : UInt16} (hr : 0xFF00 ≤ r) (h : (Target.ofAddress a).touches r = false) :=
    bus.peek_writeByte_of_not_touches v hr h
  cases ht : Target.ofAddress a with
  | divider | timerCounter | timerModulo | timerControl =>
    rw [Bus.writeByte, ht]
    exact (showsTimer_syncTimer _).callHooks a v
  | _ =>
    rw [ht] at htimer hframe
    exact h.of_peek htimer (hframe (by decide) (by decide)) (hframe (by decide) (by decide))
      (hframe (by decide) (by decide)) (hframe (by decide) (by decide))

end ShowsTimer

end Bus

end EightBit.GameBoy
