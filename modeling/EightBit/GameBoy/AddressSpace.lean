/-!
# The address space of the handheld

Which device a write to an address reaches. Reading needs no such map: every register that can be
read is kept up to date in memory.

## Main definitions

* `Target`, `Target.ofAddress`: the devices, and the one at an address.
* `isHooked`: the addresses whose writes hooks are told of.
-/

namespace EightBit.GameBoy

/-- What a write reaches. -/
inductive Target
  /-- The cartridge, which has no mapper to take the write. -/
  | cartridge
  /-- Work memory that also appears in the echo area. -/
  | mirrored
  /-- The echo of work memory. -/
  | echo
  /-- The area between object memory and the registers, where nothing is. -/
  | unusable
  | joypad
  | serialData
  | serialControl
  | divider
  | timerCounter
  | timerModulo
  | timerControl
  | requests
  | lcdControl
  | lcdStatus
  /-- The line being drawn, which cannot be written. -/
  | lcdLine
  | lcdCompare
  | oamDma
  /-- Any other memory or register: the byte is just stored. -/
  | plain
  deriving DecidableEq, Repr

namespace Target

/-- The register at an address from `0xFF00` on. -/
def ofRegister (a : UInt16) : Target :=
  match a with
  | 0xFF00 => joypad
  | 0xFF01 => serialData
  | 0xFF02 => serialControl
  | 0xFF04 => divider
  | 0xFF05 => timerCounter
  | 0xFF06 => timerModulo
  | 0xFF07 => timerControl
  | 0xFF0F => requests
  | 0xFF40 => lcdControl
  | 0xFF41 => lcdStatus
  | 0xFF44 => lcdLine
  | 0xFF45 => lcdCompare
  | 0xFF46 => oamDma
  | _ => plain

/-- What a write to an address reaches. -/
def ofAddress (a : UInt16) : Target :=
  if a < 0x8000 then cartridge
  else if a < 0xC000 then plain
  else if a < 0xDE00 then mirrored
  else if a < 0xE000 then plain
  else if a < 0xFE00 then echo
  else if a < 0xFEA0 then plain
  else if a < 0xFF00 then unusable
  else ofRegister a

end Target

/-- Whether hooks are told of writes to an address: the register page, and the interrupt enable
register at the last address. -/
def isHooked (a : UInt16) : Bool :=
  (0xFF00 ≤ a && a < 0xFF80) || a == 0xFFFF

end EightBit.GameBoy
