/-!
# Interrupt sources of the SM83

The five sources share one layout in the request register and in the enable register: bit `k` of
either belongs to source `k`, and a lower bit wins over a higher one.

## Main definitions

* `InterruptSource`: a source, with its `mask`, `vector` and `name`.
* `Interrupts`: a set of sources, with `highest?` and `vector?`.
-/

namespace EightBit.Sm83

/-- A source of interrupts, the most urgent first. -/
inductive InterruptSource
  /-- The display has entered its vertical blank. -/
  | vblank
  /-- The display controller's status line rose. -/
  | lcdStat
  /-- The timer counter was reloaded after an overflow. -/
  | timer
  /-- A serial transfer finished. -/
  | serial
  /-- A joypad line fell. -/
  | joypad
  deriving DecidableEq, Repr

namespace InterruptSource

/-- Every source, in order of priority. -/
def all : List InterruptSource := [vblank, lcdStat, timer, serial, joypad]

/-- The position of a source in the request and enable registers. -/
def index : InterruptSource → Nat
  | vblank => 0
  | lcdStat => 1
  | timer => 2
  | serial => 3
  | joypad => 4

/-- The bit of a source in the request and enable registers. -/
def mask : InterruptSource → UInt8
  | vblank => 0x01
  | lcdStat => 0x02
  | timer => 0x04
  | serial => 0x08
  | joypad => 0x10

/-- The address a source's handler begins at: eight bytes for each source, from `0x40` on. -/
def vector : InterruptSource → UInt16
  | vblank => 0x40
  | lcdStat => 0x48
  | timer => 0x50
  | serial => 0x58
  | joypad => 0x60

/-- The name of a source in messages. -/
def name : InterruptSource → String
  | vblank => "VBLANK"
  | lcdStat => "LCD_STAT"
  | timer => "TIMER"
  | serial => "SERIAL"
  | joypad => "JOYPAD"

end InterruptSource

/-- A set of interrupt sources, as a byte in the layout of the request register. -/
structure Interrupts where
  /-- The sources of the set, one bit each. -/
  bits : UInt8
  deriving DecidableEq

namespace Interrupts

/-- The bits that belong to a source. -/
def knownBits : UInt8 := 0x1F

/-- The sources among the bits of a byte. -/
@[inline] def ofBits (b : UInt8) : Interrupts :=
  ⟨b &&& knownBits⟩

/-- Whether the set has no member. -/
@[inline] def isEmpty (i : Interrupts) : Bool :=
  i.bits == 0

/-- Whether a source is in the set. -/
@[inline] def contains (i : Interrupts) (source : InterruptSource) : Bool :=
  i.bits &&& source.mask != 0

/-- The most urgent member. -/
def highest? (i : Interrupts) : Option InterruptSource :=
  InterruptSource.all.find? i.contains

/-- The vector of the most urgent member. -/
def vector? (i : Interrupts) : Option UInt16 :=
  i.highest?.map InterruptSource.vector

end Interrupts

end EightBit.Sm83
