import EightBit.GameBoy.Bus

/-!
# The bus after power-on

Work memory and high memory hold noise after power-on, which comes from a seed so that runs can be
repeated. Where the noise of a seed comes from is left open here. The registers hold what the boot
program of the handheld leaves behind.

## Main definitions

* `RamBytes`, `RamInit`: what work memory and high memory hold, and how it is chosen.
* `NoiseSource`: where the noise comes from.
* `registerDefaults`: the registers after the boot program.
* `Bus.powerOn`: the bus after power-on.
* `Bus.loadRom`: a cartridge image in its window.
-/

namespace EightBit.GameBoy

open Sm83 (requestAddress enableAddress)

/-- The first address of work memory, and its size. -/
def workRamStart : UInt16 := 0xC000

def workRamSize : Nat := 0x2000

/-- The first address of high memory, and its size. -/
def highRamStart : UInt16 := 0xFF80

def highRamSize : Nat := 0x7F

/-- The bytes of work memory that appear in the echo area. -/
def echoSize : Nat := 0x1E00

/-- The size of the window that a cartridge appears in. -/
def romWindowSize : Nat := 0x8000

/-- What an empty part of the cartridge window reads as. -/
def openBus : UInt8 := 0xFF

/-- The bytes of work memory followed by those of high memory. -/
abbrev RamBytes : Type := Vector UInt8 (workRamSize + highRamSize)

def RamBytes.zeroed : RamBytes := .replicate _ 0

/-- Memory with work memory, its echo and high memory filled. -/
def RamBytes.memory (ram : RamBytes) : Memory :=
  let m := Memory.blank.store workRamStart (ram.toList.take workRamSize)
  let m := m.store highRamStart (ram.toList.drop workRamSize)
  m.copy workRamStart (workRamStart + echoOffset) echoSize

/-- Where the noise that memory holds after power-on comes from. -/
class NoiseSource where
  /-- The noise of a seed. -/
  noise : (seed : UInt64) → RamBytes

/-- What work memory and high memory are to hold after power-on. -/
inductive RamInit
  | zeroed
  /-- The noise of a seed. -/
  | noise (seed : UInt64)
  deriving DecidableEq, Repr

/-- The seed of the noise unless another is asked for. -/
def defaultSeed : UInt64 := 0xC0DE1234

/-- What they hold. -/
def RamInit.bytes [NoiseSource] : RamInit → RamBytes
  | zeroed => .zeroed
  | noise seed => NoiseSource.noise seed

/-- The registers after the boot program that have no device behind them here: the joypad lines,
the interrupt registers, sound, and the picture. -/
def registerDefaults : List (UInt16 × UInt8) :=
  [ (0xFF00, 0xCF), (requestAddress, 0xE1), (enableAddress, 0x00),
    (0xFF10, 0x80), (0xFF11, 0xBF), (0xFF12, 0xF3), (0xFF13, 0xFF), (0xFF14, 0xBF),
    (0xFF16, 0x3F), (0xFF17, 0x00), (0xFF18, 0xFF), (0xFF19, 0xBF),
    (0xFF1A, 0x7F), (0xFF1B, 0xFF), (0xFF1C, 0x9F), (0xFF1D, 0xFF), (0xFF1E, 0xBF),
    (0xFF20, 0xFF), (0xFF21, 0x00), (0xFF22, 0x00), (0xFF23, 0xBF),
    (0xFF24, 0x77), (0xFF25, 0xF3), (0xFF26, 0xF1),
    (lcdControlAddress, 0x91), (lcdStatusAddress, 0x85), (0xFF42, 0x00), (0xFF43, 0x00),
    (lcdLineAddress, 0x00), (lcdCompareAddress, 0x00), (oamDmaAddress, 0xFF), (0xFF47, 0xFC),
    (0xFF4A, 0x00), (0xFF4B, 0x00) ]

namespace Bus

/-- The bus after power-on, with no cartridge. -/
def powerOn (ram : RamBytes) (journal : Journal) : Bus :=
  let serial := Serial.powerOn
  let m := registerDefaults.foldl (fun m (a, v) => m.write a v) ram.memory
  let m := (m.write serialDataAddress serial.sb).write serialControlAddress serial.controlRead
  let bus : Bus :=
    { memory := m
      serial
      timer := .powerOn
      lcdDots := 0
      statLine := false
      frames := 0
      hooks := #[]
      hookCalls := #[]
      journal }
  bus.syncTimer

/-- The bytes of a cartridge window that an image occupies. -/
def romWindow (image : List UInt8) : List UInt8 :=
  image ++ List.replicate (romWindowSize - image.length) openBus

/-- Puts a cartridge image into its window; an image that is too long is refused with its length,
because there is no mapper for it. -/
def loadRom (bus : Bus) (image : List UInt8) : Except Nat Bus :=
  if image.length ≤ romWindowSize then .ok (bus.mapMemory (·.store 0 (romWindow image)))
  else .error image.length

end Bus

end EightBit.GameBoy
