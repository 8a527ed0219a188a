import EightBit.GameBoy.PowerOn
import EightBit.Sm83.Dispatch
import EightBit.Trace.Log

/-!
# The handheld

A processor on its bus. One step of the machine executes one instruction, lets the devices catch up
and then lets the processor take an interrupt.

## Main definitions

* `Config`: the choices made before power-on.
* `Machine`, `Machine.create`, `Machine.reset`: the machine, and its state after power-on.
* `Machine.step`, `Machine.stepFrame`: an instruction, and a frame's worth of them.
* `RomTooLarge`, `Machine.loadRom`: loading a cartridge.
-/

namespace EightBit.GameBoy

open Sm83 (Board)

/-- The choices made before power-on. -/
structure Config where
  /-- What the processor's registers hold. -/
  boot : Sm83.BootState := .dmg
  /-- What work memory holds. -/
  ram : RamInit := .noise defaultSeed
  /-- Whether executed instructions are recorded. -/
  trace : Bool := false
  /-- How many of them are kept at most. -/
  traceLimit : Option Nat := none
  deriving DecidableEq, Repr

/-- The machine. -/
structure Machine where
  config : Config
  board : Board Bus
  /-- The instructions recorded so far. -/
  trace : TraceLog
  /-- The T-cycles by which the last frame ran over; the next is shorter by as many. -/
  overshoot : Nat
  /-- T-cycles since power-on. -/
  totalCycles : Nat

/-- A cartridge image that does not fit its window. -/
structure RomTooLarge where
  /-- The length of the image. -/
  length : Nat
  deriving DecidableEq

/-- The wording of the refusal. -/
def RomTooLarge.message (e : RomTooLarge) : String :=
  "ROM image is " ++ toString e.length ++ " bytes; at most " ++ toString romWindowSize
    ++ " bytes fit the cartridge ROM window"

namespace Machine

/-- The machine after power-on, with no cartridge. -/
def create [NoiseSource] (config : Config) (journal : Journal) : Machine where
  config := config
  board := { cpu := .create config.boot, bus := .powerOn config.ram.bytes journal }
  trace := .create config.traceLimit
  overshoot := 0
  totalCycles := 0

/-- The bytes in the cartridge window. -/
def romBytes (m : Machine) : List UInt8 :=
  m.board.bus.memory.slice 0 romWindowSize

/-- Switches the machine off and on again. The cartridge stays in; the notices taken so far are
kept. -/
def reset [NoiseSource] (m : Machine) : Machine :=
  let fresh := create m.config m.board.bus.journal
  { fresh with
    board := {
      cpu := m.board.cpu.reset
      bus := fresh.board.bus.mapMemory (·.store 0 m.romBytes) } }

/-- Changes the bus. -/
@[inline] def mapBus (m : Machine) (f : Bus → Bus) : Machine :=
  { m with board := { m.board with bus := f m.board.bus } }

/-- Puts a cartridge in. -/
def loadRom (m : Machine) (image : List UInt8) : Except RomTooLarge Machine :=
  match m.board.bus.loadRom image with
  | .ok bus => .ok { m with board := { m.board with bus := bus.note (.romLoaded image.length) } }
  | .error n => .error ⟨n⟩

/-- Records an executed instruction: in the trace if tracing is on, else as a notice. -/
def observe (config : Config) (trace : TraceLog) (board : Board Bus)
    (executed : Option Sm83.Instruction) : TraceLog × Board Bus :=
  match executed with
  | none => (trace, board)
  | some i =>
    if config.trace then (trace.record (board.cpu.traceEntry i), board)
    else if board.bus.journal.keeps .trace then
      (trace, { board with bus := board.bus.note (.executed (board.cpu.traceEntry i)) })
    else (trace, board)

/-- Lets time pass after a step, unless the processor is stopped and with it the clock. -/
@[inline] def settle (board : Board Bus) (n : Nat) : Board Bus :=
  if board.cpu.stopped then board else { board with bus := board.bus.passTime n }

/-- Executes one instruction, or waits for one machine cycle, and takes an interrupt if one is due.
The first component is the T-cycles all this took. -/
def step (m : Machine) : Nat × Machine :=
  let ⟨config, board, trace, overshoot, totalCycles⟩ := m
  let ⟨cycles, board, executed⟩ := board.step
  let (trace, board) := observe config trace board executed
  let (entry, board) := (settle board cycles).handleInterrupts
  match entry with
  | some n =>
    let cycles := cycles + n
    (cycles, { config, trace, overshoot, totalCycles := totalCycles + cycles,
               board := { board with bus := board.bus.passTime n } })
  | none => (cycles, { config, board, trace, overshoot, totalCycles := totalCycles + cycles })

/-- Steps until `budget` T-cycles have run, of which `ran` have already. Every step takes time, so
that `fuel` steps suffice as soon as `budget ≤ ran + fuel`. -/
def runFor (budget : Nat) : (fuel ran : Nat) → Machine → Nat × Machine
  | 0, ran, m => (ran, m)
  | fuel + 1, ran, m =>
    if ran < budget then
      let (n, m) := m.step
      runFor budget fuel (ran + n) m
    else (ran, m)

/-- Runs for one frame, less what the last one ran over. The first component is the T-cycles
run. -/
def stepFrame (m : Machine) : Nat × Machine :=
  let budget := dotsPerFrame - m.overshoot
  let (ran, m) := runFor budget budget 0 m
  (ran, { m with overshoot := ran - budget })

/-- The bytes sent over the link port. -/
def serialOutput (m : Machine) : List UInt8 :=
  m.board.bus.serial.output.toList

end Machine

end EightBit.GameBoy
