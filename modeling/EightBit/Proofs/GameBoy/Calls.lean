import EightBit.Proofs.GameBoy.Lcd
import EightBit.Proofs.GameBoy.PowerOn

/-!
# Calls of a bus

A driver may call a bus in any order: it writes and reads, lets time pass, requests interrupts, puts
a cartridge in and registers hooks. What every call preserves holds after any number of them, and
what a call does to a device is what the device does by itself.

## Main definitions

* `Bus.Call`, `Bus.apply`, `Bus.run`: a call, its effect, and that of several.
* `Target.register?`: the register that a target has to itself.

## Main results

* `Bus.run_induction`: what calls preserve.
* `Bus.wellFormed_lcd_run`: the display after any number of calls.
-/

namespace EightBit.GameBoy

open Sm83 (Interrupts requestAddress joypadAddress tick requestInterrupt)

/-! ### Addresses -/

/-- The register that a target has to itself, for those with one. -/
def Target.register? : Target → Option UInt16
  | joypad => some joypadAddress
  | serialData => some serialDataAddress
  | serialControl => some serialControlAddress
  | divider => some dividerAddress
  | timerCounter => some timerCounterAddress
  | timerModulo => some timerModuloAddress
  | timerControl => some timerControlAddress
  | requests => some requestAddress
  | lcdControl => some lcdControlAddress
  | lcdStatus => some lcdStatusAddress
  | lcdLine => some lcdLineAddress
  | lcdCompare => some lcdCompareAddress
  | oamDma => some oamDmaAddress
  | _ => none

/-- A target is reached at its register only. -/
theorem Target.eq_of_register? {a r : UInt16} (h : (ofAddress a).register? = some r) : a = r := by
  unfold ofAddress ofRegister at h
  repeat' split at h
  all_goals first
    | exact Option.some.inj h
    | exact absurd h nofun

namespace Bus

/-- What a driver may ask of a bus. -/
inductive Call
  | write (address : UInt16) (value : UInt8)
  | read (address : UInt16)
  /-- Lets a number of T-cycles pass. -/
  | tick (cycles : Nat)
  | request (interrupts : Interrupts)
  /-- Puts a cartridge in. -/
  | insert (image : List UInt8)
  /-- Registers a hook under a name. -/
  | hook (name : Nat)

/-- The bus after a call. -/
def apply (bus : Bus) : Call → Bus
  | .write a v => write bus a v
  | .read _ => bus
  | .tick n => tick n bus
  | .request i => requestInterrupt i bus
  | .insert image => bus.insert image
  | .hook name => bus.addHook name

/-- The bus after a number of calls, the first one first. -/
def run (bus : Bus) (cs : List Call) : Bus :=
  cs.foldl apply bus

theorem run_cons (bus : Bus) (c : Call) (cs : List Call) :
    bus.run (c :: cs) = (bus.apply c).run cs := rfl

theorem run_append (bus : Bus) (cs ds : List Call) :
    bus.run (cs ++ ds) = (bus.run cs).run ds :=
  List.foldl_append

/-- What every call preserves holds after any number of them. -/
theorem run_induction {P : Bus → Prop} {bus : Bus} (hbus : P bus)
    (hcall : ∀ bus c, P bus → P (apply bus c)) (cs : List Call) : P (bus.run cs) :=
  List.foldlRecOn cs _ hbus fun bus h c _ => hcall bus c h

/-! ### What calls do to the devices -/

@[simp] theorem lcd_request (bus : Bus) (bits : UInt8) : (bus.request bits).lcd = bus.lcd :=
  lcd_eq (peek_poke_of_ne _ _ (by decide)) (peek_poke_of_ne _ _ (by decide))
    (peek_poke_of_ne _ _ (by decide)) (peek_poke_of_ne _ _ (by decide)) rfl rfl rfl

/-- What writes and time preserve of the display, calls preserve. -/
theorem lcd_apply_induction {P : Lcd → Prop} {bus : Bus} (hbus : P bus.lcd)
    (hwritten : ∀ v target, P (bus.lcd.written v target)) (hdot : ∀ n, P (Lcd.dot^[n] bus.lcd))
    (c : Call) : P (bus.apply c).lcd := by
  cases c with
  | write a v =>
    have h := hwritten v (.ofAddress a)
    rwa [← lcd_writeByte] at h
  | tick n =>
    have h := hdot n
    rwa [← lcd_passTime] at h
  | request i =>
    rw [← lcd_request bus i.bits] at hbus
    exact hbus
  | insert image =>
    rw [← lcd_insert bus image] at hbus
    exact hbus
  | read | hook => exact hbus

theorem wellFormed_lcd_powerOn (ram : RamBytes) (journal : Journal) :
    (powerOn ram journal).lcd.WellFormed := by
  rw [lcd_powerOn]
  exact {
    dots_lt := by decide
    line := by decide
    off := by decide
    top := by decide
    statLine := by decide
    upToDate := nofun }

theorem wellFormed_lcd_apply {bus : Bus} (h : bus.lcd.WellFormed) (c : Call) :
    (bus.apply c).lcd.WellFormed :=
  lcd_apply_induction h h.written h.iterate_dot c

/-- The display after any number of calls. -/
theorem wellFormed_lcd_run (ram : RamBytes) (journal : Journal) (cs : List Call) :
    ((powerOn ram journal).run cs).lcd.WellFormed :=
  run_induction (P := fun bus => bus.lcd.WellFormed) (wellFormed_lcd_powerOn ram journal)
    (fun _ c h => wellFormed_lcd_apply h c) cs

end Bus

end EightBit.GameBoy
