import EightBit.Cpm.Bus
import EightBit.Trace.Log
import EightBit.Z80.Interrupt

/-!
# A bare CP/M machine

A Z80 with just enough of CP/M around it for a program that prints: the program is loaded into the
transient area, calls to the operating system's entry print on the console, and a jump to the warm
boot entry at address zero ends the run.

## Main definitions

* `Config`, `Machine`, `Machine.create`: the machine and how it starts.
* `Machine.loadCom`, `ComTooLarge`: loading a program.
* `Machine.systemCall`: what a call to the operating system does.
* `Machine.step`, `Machine.run`: an instruction, and as many as fit a budget of cycles.
-/

namespace EightBit.Cpm

open Z80 (Board)

/-- Where a program is loaded. -/
def programStart : UInt16 := 0x0100

/-- The entry of the operating system. -/
def systemEntry : UInt16 := 0x0005

/-- The end of the transient area, which programs find at the address after the entry. -/
def programEnd : UInt16 := 0xFE00

/-- The bytes of the transient area. -/
def programSpace : Nat := 0xFD00

/-- The console output function of the operating system. -/
def consoleOutput : UInt8 := 2

/-- The string output function of the operating system. -/
def printString : UInt8 := 9

/-- The character that ends a string. -/
def stringEnd : UInt8 := '$'.toUInt8

/-- The opcodes of `HALT` and `RET`. -/
def haltOpcode : UInt8 := 0x76

def retOpcode : UInt8 := 0xC9

/-- The choices made before a program is loaded. -/
structure Config where
  /-- Whether executed instructions are recorded. -/
  trace : Bool := false
  /-- How many of them are kept at most. -/
  traceLimit : Option Nat := none
  deriving DecidableEq, Repr

/-- The machine. -/
structure Machine where
  board : Board Bus
  /-- Whether executed instructions are recorded. -/
  traced : Bool
  /-- The instructions recorded so far. -/
  trace : TraceLog
  /-- The program has returned to the operating system. -/
  finished : Bool
  /-- T-cycles since the program was loaded. -/
  totalCycles : Nat

/-- A program that does not fit the transient area. -/
structure ComTooLarge where
  /-- The length of the image. -/
  length : Nat
  deriving DecidableEq

/-- The wording of the refusal. -/
def ComTooLarge.message (e : ComTooLarge) : String :=
  "COM image is " ++ toString e.length ++ " bytes; at most " ++ toString programSpace
    ++ " fit in the TPA"

namespace Machine

/-- The machine with no program. -/
def create (config : Config) (journal : Journal) : Machine where
  board := { cpu := .create, bus := .create journal }
  traced := config.trace
  trace := .create config.traceLimit
  finished := false
  totalCycles := 0

/-- Memory with a program in the transient area, and around it the few bytes of the operating
system that programs rely on: a `HALT` at the warm boot entry, a `RET` at the system entry with the
end of the transient area after it, and a zero return address on the stack. -/
def programMemory (m : Memory) (image : List UInt8) : Memory :=
  let m := m.store programStart image
  let m := m.write 0x0000 haltOpcode
  let m := m.write systemEntry retOpcode
  let m := (m.write 0x0006 (loByte programEnd)).write 0x0007 (hiByte programEnd)
  (m.write (programEnd - 2) 0).write (programEnd - 1) 0

/-- The processor about to start a program. -/
def startCpu : Z80.Cpu :=
  let cpu := Z80.Cpu.create
  { cpu with regs := { cpu.regs with pc := programStart, sp := programEnd - 2 } }

/-- Loads a program and makes the processor ready to start it. An image that is too long is refused
and leaves the machine as it was. -/
def loadCom (m : Machine) (image : List UInt8) : Except ComTooLarge Machine :=
  if image.length ≤ programSpace then
    let bus := { m.board.bus.mapMemory (programMemory · image) with console := #[] }
    .ok { m with
      board := { cpu := startCpu, bus := bus.note (.comLoaded image.length) }
      finished := false
      totalCycles := 0 }
  else .error ⟨image.length⟩

/-! ### The operating system -/

/-- Prints the string at `a` that the end character closes, at most `n` bytes of it. A string that
nothing closes is all of memory, once. -/
def printFrom (bus : Bus) (a : UInt16) : (n : Nat) → Bus
  | 0 => bus
  | n + 1 =>
    let b := bus.memory.read a
    if b = stringEnd then bus else printFrom (bus.print b) (a + 1) n

/-- What a call to the operating system does, before the `RET` at its entry executes. -/
def systemCall (s : Board Bus) : Board Bus :=
  let r := s.cpu.regs
  if r.c = consoleOutput then { s with bus := s.bus.print r.e }
  else if r.c = printString then { s with bus := printFrom s.bus r.de addressCount }
  else { s with bus := s.bus.note (.unsupportedBdos r.c) }

/-! ### Running -/

/-- Records an executed instruction: in the trace if tracing is on, else as a notice. -/
def observe (traced : Bool) (trace : TraceLog) (board : Board Bus)
    (executed : Option (Z80.IndexMode × Z80.Instruction)) : TraceLog × Board Bus :=
  match executed with
  | none => (trace, board)
  | some (mode, i) =>
    if traced then (trace.record (board.cpu.traceEntry mode i), board)
    else if board.bus.journal.keeps .trace then
      (trace, { board with bus := board.bus.note (.executed (board.cpu.traceEntry mode i)) })
    else (trace, board)

/-- Executes one instruction of a board whose program goes on. -/
def execute (m : Machine) : Nat × Machine :=
  let ⟨board, traced, trace, finished, totalCycles⟩ := m
  let board := if board.cpu.regs.pc = systemEntry then systemCall board else board
  let ⟨cycles, board, executed⟩ := board.step
  let (trace, board) := observe traced trace board executed
  let (entry, board) := board.handleInterrupts
  let cycles := cycles + entry.getD 0
  (cycles, { board, traced, trace, finished, totalCycles := totalCycles + cycles })

/-- Executes one instruction, with the call to the operating system if the program counter is at
its entry. At the warm boot entry the program is finished; a finished program does nothing. The
first component is the T-cycles taken. -/
def step (m : Machine) : Nat × Machine :=
  if m.finished then (0, m)
  else if m.board.cpu.regs.pc = 0 then
    (0, { m with
      finished := true
      board := { m.board with bus := m.board.bus.note (.warmBoot m.totalCycles) } })
  else m.execute

/-- Steps until the program is finished or `budget` cycles have passed. Every step that does not
finish the program takes time, so that `fuel` steps suffice as soon as `budget` is below the cycles
passed and `fuel` together. -/
def runFor (budget : Nat) : (fuel : Nat) → Machine → Machine
  | 0, m => m
  | fuel + 1, m =>
    if !m.finished && m.totalCycles < budget then runFor budget fuel m.step.2 else m

/-- Runs until the program is finished or `budget` cycles have passed since it was loaded. The
first component says whether the program is finished. -/
def run (m : Machine) (budget : Nat) : Bool × Machine :=
  let m := runFor budget (budget + 1 - m.totalCycles) m
  (m.finished, m)

/-- The bytes printed on the console. -/
def consoleBytes (m : Machine) : List UInt8 :=
  m.board.bus.console.toList

end Machine

end EightBit.Cpm
