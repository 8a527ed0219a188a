import EightBit.GameBoy.AddressSpace
import EightBit.GameBoy.Clockwork
import EightBit.GameBoy.Serial
import EightBit.Memory
import EightBit.Sm83.Bus

/-!
# The bus of the handheld

Memory and the devices behind its registers. Every register that can be read has its value in
memory, so reading is a look-up; what writing and the passing of time do to a device is written
back there.

## Main definitions

* `Bus`: memory, the devices, the hooks and the notices.
* `Bus.clockwork`, `Bus.withClockwork`: the clocked devices taken out of the bus and put back.
* `Bus.writeByte`: a write, with the effect of the device it reaches and the calls of the hooks.
* `Bus.passTime`: a number of T-cycles.
* `HookCall`, `Bus.addHook`: what hooks are told.

## Main results

* `Bus.clockwork_withClockwork`: what is put back is what is taken out next.
-/

namespace EightBit.GameBoy

open Sm83 (requestAddress InterruptSource Interrupts)

/-! ### Addresses of registers -/

def serialDataAddress : UInt16 := 0xFF01
def serialControlAddress : UInt16 := 0xFF02
def dividerAddress : UInt16 := 0xFF04
def timerCounterAddress : UInt16 := 0xFF05
def timerModuloAddress : UInt16 := 0xFF06
def timerControlAddress : UInt16 := 0xFF07
def lcdControlAddress : UInt16 := 0xFF40
def lcdStatusAddress : UInt16 := 0xFF41
def lcdLineAddress : UInt16 := 0xFF44
def lcdCompareAddress : UInt16 := 0xFF45
def oamDmaAddress : UInt16 := 0xFF46

/-- The first address of object memory. -/
def oamStart : UInt16 := 0xFE00

/-- The bytes of object memory. -/
def oamSize : Nat := 0xA0

/-- The distance between work memory and its echo. -/
def echoOffset : UInt16 := 0x2000

/-- The bits of the request register that do not exist and read as one. -/
def unusedRequestBits : UInt8 := 0xE0

/-- What a hook is told of a write, with the byte that memory holds afterwards. -/
structure HookCall where
  /-- The name the hook was registered under. -/
  hook : Nat
  address : UInt16
  /-- The byte that was written, whatever the register made of it. -/
  value : UInt8
  /-- The byte that reads back. -/
  readBack : UInt8
  deriving DecidableEq, Repr

/-- The state of the bus. -/
structure Bus where
  /-- Memory, and every register as it reads. -/
  memory : Memory
  serial : Serial
  timer : Timer
  /-- Dots since the frame began. -/
  lcdDots : Nat
  /-- The status line of the display as it was last computed. -/
  statLine : Bool
  /-- Vertical blanks begun since power-on. -/
  frames : Nat
  /-- The names of the registered hooks, in order. -/
  hooks : Array Nat
  /-- The calls of the hooks so far. -/
  hookCalls : Array HookCall
  journal : Journal

namespace Bus

/-- Changes memory. -/
@[inline] def mapMemory (bus : Bus) (f : Memory → Memory) : Bus :=
  { bus with memory := f bus.memory }

/-- Stores a byte, with no effect on a device. -/
@[inline] def poke (bus : Bus) (a : UInt16) (v : UInt8) : Bus :=
  bus.mapMemory (·.write a v)

/-- The byte at an address. -/
@[inline] def peek (bus : Bus) (a : UInt16) : UInt8 :=
  bus.memory.read a

/-- Adds a notice. -/
@[inline] def note (bus : Bus) (n : Notice) : Bus :=
  { bus with journal := bus.journal.note n }

/-- Sets bits of the request register. -/
@[inline] def request (bus : Bus) (bits : UInt8) : Bus :=
  bus.poke requestAddress (bus.peek requestAddress ||| bits)

/-! ### The clocked devices -/

/-- The display controller as memory and the bus describe it. -/
def lcd (bus : Bus) : Lcd where
  control := bus.peek lcdControlAddress
  status := bus.peek lcdStatusAddress
  line := bus.peek lcdLineAddress
  compare := bus.peek lcdCompareAddress
  dots := bus.lcdDots
  statLine := bus.statLine
  frames := bus.frames

/-- The clocked devices. -/
def clockwork (bus : Bus) : Clockwork where
  timer := bus.timer
  lcd := bus.lcd
  requests := bus.peek requestAddress
  journal := bus.journal

/-- Puts the clocked devices back: what they can change of memory, and the state behind it. -/
def withClockwork (bus : Bus) (c : Clockwork) : Bus :=
  { bus with
    memory := ((bus.memory.write requestAddress c.requests).write lcdStatusAddress
      c.lcd.status).write lcdLineAddress c.lcd.line
    timer := c.timer
    lcdDots := c.lcd.dots
    statLine := c.lcd.statLine
    frames := c.lcd.frames
    journal := c.journal }

/-- Shows the timer in memory. -/
def syncTimer (bus : Bus) : Bus :=
  let t := bus.timer
  bus.mapMemory fun m =>
    (((m.write dividerAddress t.divider).write timerCounterAddress t.tima).write
      timerModuloAddress t.tma).write timerControlAddress t.controlRead

/-- Lets a number of T-cycles pass. -/
def passTime (n : Nat) (bus : Bus) : Bus :=
  (bus.withClockwork (bus.clockwork.run n)).syncTimer

/-- Brings the display's status up to date. -/
def refreshLcd (bus : Bus) : Bus :=
  bus.withClockwork bus.clockwork.refresh

/-! ### Writes -/

/-- Changes the timer and shows it in memory. -/
@[inline] def mapTimer (bus : Bus) (f : Timer → Timer) : Bus :=
  { bus with timer := f bus.timer }.syncTimer

/-- A write to the serial control register. A transfer it completes requests the interrupt. -/
def writeSerialControl (bus : Bus) (v : UInt8) : Bus :=
  let serial := bus.serial.writeControl v
  let bus := { bus with serial := serial }
  let bus := if Serial.starts v then bus.request InterruptSource.serial.mask else bus
  bus.poke serialControlAddress serial.controlRead

/-- A write to the control register of the display. Switching the display off resets its
position. -/
def writeLcdControl (bus : Bus) (v : UInt8) : Bus :=
  let wasOn := Lcd.switchedOn (bus.peek lcdControlAddress)
  let bus := bus.poke lcdControlAddress v
  let bus :=
    if wasOn && !Lcd.switchedOn v then
      ({ bus with lcdDots := 0 }.poke lcdLineAddress 0).note .displayDisabled
    else bus
  bus.refreshLcd

/-- A write to the status register of the display, of which only the selections change. -/
def writeLcdStatus (bus : Bus) (v : UInt8) : Bus :=
  let old := bus.peek lcdStatusAddress
  (bus.poke lcdStatusAddress ((old &&& 0x07) ||| (v &&& 0x78) ||| 0x80)).refreshLcd

/-- Copies a page's first bytes to object memory, one after the other, all at once. -/
def startDma (bus : Bus) (v : UInt8) : Bus :=
  let source := v.toUInt16 <<< 8
  let bus := bus.mapMemory fun m => (m.copy source oamStart oamSize).write oamDmaAddress v
  bus.note (.oamDma source)

/-- A write, with the effect of the device it reaches. -/
def writeTarget (bus : Bus) (target : Target) (a : UInt16) (v : UInt8) : Bus :=
  match target with
  | .cartridge => bus.note (.romWrite v a)
  | .mirrored => (bus.poke a v).poke (a + echoOffset) v
  | .echo => (bus.poke a v).poke (a - echoOffset) v
  | .unusable | .lcdLine => bus
  | .joypad => bus.poke a (0xC0 ||| (v &&& 0x30) ||| 0x0F)
  | .serialData => { bus with serial := bus.serial.writeData v }.poke a v
  | .serialControl => bus.writeSerialControl v
  | .divider => bus.mapTimer (·.writeDivider)
  | .timerCounter => bus.mapTimer (·.writeCounter v)
  | .timerModulo => bus.mapTimer (·.writeModulo v)
  | .timerControl => bus.mapTimer (·.writeControl v)
  | .requests => bus.poke a (v ||| unusedRequestBits)
  | .lcdControl => bus.writeLcdControl v
  | .lcdStatus => bus.writeLcdStatus v
  | .lcdCompare => (bus.poke a v).refreshLcd
  | .oamDma => bus.startDma v
  | .plain => bus.poke a v

/-- Tells every hook of a write. -/
def callHooks (bus : Bus) (a : UInt16) (v : UInt8) : Bus :=
  if isHooked a then
    let readBack := bus.peek a
    let calls := bus.hooks.map fun hook => { hook, address := a, value := v, readBack : HookCall }
    { bus with hookCalls := bus.hookCalls ++ calls }
  else bus

/-- A write to an address: the device it reaches acts, then the hooks are told. -/
def writeByte (bus : Bus) (a : UInt16) (v : UInt8) : Bus :=
  (bus.writeTarget (.ofAddress a) a v).callHooks a v

/-- Registers a hook under a name. -/
def addHook (bus : Bus) (name : Nat) : Bus :=
  { bus with hooks := bus.hooks.push name }

instance : Addressable Bus where
  read := peek
  write := writeByte
  note n bus := bus.note n

instance : Sm83.Bus Bus where
  tick := passTime
  requestInterrupt i bus := bus.request i.bits

/-! ### Taking out and putting back -/

/-- What is put back is what is taken out next. -/
theorem clockwork_withClockwork (bus : Bus) (c : Clockwork)
    (hc : c.lcd.control = bus.peek lcdControlAddress)
    (hk : c.lcd.compare = bus.peek lcdCompareAddress) :
    (bus.withClockwork c).clockwork = c := by
  obtain ⟨timer, ⟨control, status, line, compare, dots, statLine, frames⟩, requests, journal⟩ := c
  simp_all [clockwork, withClockwork, lcd, peek, Memory.read_write, requestAddress,
    lcdStatusAddress, lcdLineAddress, lcdControlAddress, lcdCompareAddress]

end Bus

end EightBit.GameBoy
