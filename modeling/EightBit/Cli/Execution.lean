import EightBit.Cli.Arguments
import EightBit.Cpm.Machine
import EightBit.GameBoy.Machine

/-!
# Running an image

What a configured run does to a fresh machine, and what it reports. A Game Boy runs for a number of
steps or of frames; a CP/M program runs until it returns, or for a number of steps.

## Main definitions

* `Report`: what a run produced.
* `RunError`, with its `message` and `causes`: how a run can fail to start.
* `runGameBoy`, `runProgram`, `runImage`: a run of an image on either system, and on the configured
  one.
-/

namespace EightBit.Cli

/-- The steps a CP/M program runs at most when nothing else is said. -/
def defaultSteps : Nat := 20000000000

/-- How many executed instructions are kept at most. -/
def traceLimit : Nat := 10000

/-- What a run produced. -/
structure Report where
  /-- The bytes sent over the link port, or printed on the console. -/
  output : List UInt8
  /-- The steps counted against the limit; a run of frames counts none. -/
  steps : Nat
  /-- T-cycles. -/
  cycles : Nat
  /-- The CP/M program returned to the operating system. -/
  finished : Bool
  /-- The instructions recorded. -/
  trace : List TraceEntry
  deriving DecidableEq

/-- Why a run does not start. -/
inductive RunError
  /-- The program file cannot be read. -/
  | unreadable (path : String)
  | romTooLarge (e : GameBoy.RomTooLarge)
  | comTooLarge (e : Cpm.ComTooLarge)
  deriving DecidableEq

namespace RunError

/-- The wording of a failure. -/
def message : RunError → String
  | unreadable path => "failed to read ROM '" ++ path ++ "'"
  | romTooLarge _ => "failed to load Game Boy ROM"
  | comTooLarge _ => "failed to load CP/M program"

/-- What lies behind a failure, the nearest first, as far as this program knows. -/
def causes : RunError → List String
  | unreadable _ => []
  | romTooLarge e => [e.message]
  | comTooLarge e => [e.message]

end RunError

/-- Makes `n` steps. -/
def stepGameBoy : (n : Nat) → GameBoy.Machine → GameBoy.Machine
  | 0, m => m
  | n + 1, m => stepGameBoy n m.step.2

/-- Runs `n` frames. -/
def frameGameBoy : (n : Nat) → GameBoy.Machine → GameBoy.Machine
  | 0, m => m
  | n + 1, m => frameGameBoy n m.stepFrame.2

/-- Runs an image on a Game Boy. The journal comes back with what was noted. -/
def runGameBoy [GameBoy.NoiseSource] (c : RunConfig) (image : List UInt8) (journal : Journal) :
    Except RunError Report × Journal :=
  let m := GameBoy.Machine.create { trace := c.trace, traceLimit := some traceLimit } journal
  match m.loadRom image with
  | .error e => (.error (.romTooLarge e), journal)
  | .ok m =>
    let (steps, m) :=
      match c.maxSteps with
      | some n => (n, stepGameBoy n m)
      | none => (0, frameGameBoy c.frames m)
    let m := m.mapBus (·.note (.ranCycles m.totalCycles))
    (.ok
      { output := m.serialOutput
        steps
        cycles := m.totalCycles
        finished := false
        trace := m.trace.toList }, m.board.bus.journal)

/-- Makes at most `n` steps, as long as the program goes on, after `steps` steps already made. The
first component counts them all. -/
def stepProgram : (n steps : Nat) → Cpm.Machine → Nat × Cpm.Machine
  | 0, steps, m => (steps, m)
  | n + 1, steps, m =>
    if m.finished then (steps, m) else stepProgram n (steps + 1) m.step.2

/-- Runs an image as a CP/M program. The journal comes back with what was noted. -/
def runProgram (c : RunConfig) (image : List UInt8) (journal : Journal) :
    Except RunError Report × Journal :=
  let m := Cpm.Machine.create { trace := c.trace, traceLimit := some traceLimit } journal
  match m.loadCom image with
  | .error e => (.error (.comTooLarge e), journal)
  | .ok m =>
    let (steps, m) := stepProgram (c.maxSteps.getD defaultSteps) 0 m
    let journal := m.board.bus.journal
    let journal := if m.finished then journal else journal.note (.outOfSteps steps)
    (.ok
      { output := m.consoleBytes
        steps
        cycles := m.totalCycles
        finished := m.finished
        trace := m.trace.toList }, journal)

/-- Runs an image on the configured system. -/
def runImage [GameBoy.NoiseSource] (c : RunConfig) (image : List UInt8) (journal : Journal) :
    Except RunError Report × Journal :=
  match c.system with
  | .gameBoy => runGameBoy c image journal
  | .z80 => runProgram c image journal

end EightBit.Cli
