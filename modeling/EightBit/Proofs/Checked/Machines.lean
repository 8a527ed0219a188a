import EightBit.Proofs.Checked.GameBoy
import EightBit.Proofs.Checked.Z80
import EightBit.Proofs.Cpm.Steps

/-!
# Nothing leaves its type

Neither processor leaves its types in a step or in its interrupt logic, whatever its registers hold
and whatever it is connected to. Nor do the machines around them: a bare CP/M machine in any state,
and a handheld in any that a driver can bring about. The counters of T-cycles, of vertical blanks
and of invalid opcodes, which only time bounds, have no checked form.

Every access to memory is made at an address, in whatever order a processor makes its accesses, so
that reading and writing are dealt with for every state of a bus and not once more for every
instruction.

## Main definitions

* `Cpm.Machine.stepChecked`: a step of a CP/M machine.
* `WithinTypes`: every checked computation answers as the one that it checks.

## Main results

* `Cpm.Machine.stepChecked_eq`: a CP/M machine stays within its types.
* `withinTypes`: so does everything.
-/

namespace EightBit

/-! ### The CP/M machine -/

namespace Cpm

open Z80 (Board)

namespace Machine

/-- `Machine.printFrom` with checked indices. -/
def printFromChecked (bus : Bus) (a : UInt16) : (n : Nat) → Checked Bus
  | 0 => return bus
  | n + 1 => do
    let b ← bus.memory.readChecked a.toNat
    if b = stringEnd then return bus else printFromChecked (bus.print b) (a + 1) n

/-- `Machine.systemCall` with a checked search for the end of a string. -/
def systemCallChecked (s : Board Bus) : Checked (Board Bus) :=
  let r := s.cpu.regs
  if r.c = consoleOutput then return { s with bus := s.bus.print r.e }
  else if r.c = printString then do
    let bus ← printFromChecked s.bus r.de addressCount
    return { s with bus }
  else return { s with bus := s.bus.note (.unsupportedBdos r.c) }

/-- `Machine.called` with a checked call. -/
def calledChecked (m : Machine) : Checked (Board Bus) :=
  if m.board.cpu.regs.pc = systemEntry then systemCallChecked m.board else return m.board

/-- `Machine.execute` with a checked call, a checked processor and the cycles added up in a double
word. -/
def executeChecked (m : Machine) : Checked (Nat × Machine) := do
  let ⟨cycles, board, executed⟩ ← (← m.calledChecked).stepChecked
  let (trace, board) := observe m.traced m.trace board executed
  let (entry, board) := board.handleInterrupts
  let cycles ← Checked.sum 32 cycles (entry.getD 0)
  return (cycles, { m with board, trace, totalCycles := m.totalCycles + cycles })

/-- `Machine.step` with a checked instruction. -/
def stepChecked (m : Machine) : Checked (Nat × Machine) :=
  if m.finished then return (0, m)
  else if m.board.cpu.regs.pc = 0 then
    return (0, { m with
      finished := true
      board := { m.board with bus := m.board.bus.note (.warmBoot m.totalCycles) } })
  else m.executeChecked

theorem printFromChecked_eq (bus : Bus) (a : UInt16) (n : Nat) :
    printFromChecked bus a n = .ok (printFrom bus a n) := by
  induction n generalizing bus a with
  | zero => rfl
  | succ n ih =>
    rw [printFromChecked, printFrom, Memory.readChecked_toNat, Checked.ok_bind]
    split
    · rfl
    · exact ih _ _

theorem systemCallChecked_eq (s : Board Bus) : systemCallChecked s = .ok (systemCall s) := by
  rw [systemCallChecked, systemCall]
  split
  · rfl
  split
  · rw [printFromChecked_eq]
    rfl
  · rfl

variable (m : Machine)

theorem calledChecked_eq : m.calledChecked = .ok m.called := by
  rw [calledChecked, called]
  split
  · exact systemCallChecked_eq m.board
  · rfl

theorem executeChecked_eq : m.executeChecked = .ok m.execute := by
  have hcycles : m.called.step.cycles + 0 < 2 ^ 32 :=
    Nat.lt_of_le_of_lt m.called.cycles_step_le (by decide)
  rw [executeChecked, calledChecked_eq, Checked.ok_bind, Board.stepChecked_eq, Checked.ok_bind]
  dsimp only
  rw [handleInterrupts_eq]
  dsimp only
  rw [Option.getD_none, Checked.sum_eq hcycles, execute_eq]
  rfl

/-- A step stays within its types. -/
theorem stepChecked_eq : m.stepChecked = .ok m.step := by
  rw [stepChecked, step]
  split
  · rfl
  split
  · rfl
  · exact m.executeChecked_eq

end Machine

end Cpm

/-! ### Everything -/

/-- Every checked computation answers as the one that it checks. -/
structure WithinTypes : Prop where
  /-- The bytes of an instruction that is fetched are recorded. -/
  push : ∀ (bs : InstructionBytes) (b : UInt8), bs.pushChecked b = .ok (bs.push b)
  /-- Memory is read and written at addresses. -/
  read : ∀ (m : Memory) (a : UInt16), m.readChecked a.toNat = .ok (m.read a)
  write : ∀ (m : Memory) (a : UInt16) (b : UInt8), m.writeChecked a.toNat b = .ok (m.write a b)
  sm83Flag : ∀ x : Sm83.Flag, x.maskChecked = .ok x.mask
  sm83Step : ∀ {β : Type} [Sm83.Bus β] (s : Sm83.Board β), s.stepChecked = .ok s.step
  sm83Interrupts : ∀ {β : Type} [Sm83.Bus β] (s : Sm83.Board β),
    s.handleInterruptsChecked = .ok s.handleInterrupts
  z80Flag : ∀ x : Z80.Flag, x.maskChecked = .ok x.mask
  z80Step : ∀ {β : Type} [Z80.Bus β] (s : Z80.Board β), s.stepChecked = .ok s.step
  /-- A write to a handheld, whatever its bus holds. -/
  busWrite : ∀ (bus : GameBoy.Bus) (a : UInt16) (v : UInt8),
    bus.writeByteChecked a v = .ok (bus.writeByte a v)
  /-- Time, steps and frames of a handheld after any operations. -/
  handheld : ∀ [GameBoy.NoiseSource] config journal ops,
    let m := ((GameBoy.Machine.create config journal).operate ops).2
    (∀ n, m.board.bus.passTimeChecked n = .ok (m.board.bus.passTime n)) ∧
      m.stepChecked = .ok m.step ∧ m.stepFrameChecked = .ok m.stepFrame
  /-- A step of a CP/M machine in any state. -/
  cpmStep : ∀ m : Cpm.Machine, m.stepChecked = .ok m.step

/-- Nothing leaves its type. -/
theorem withinTypes : WithinTypes where
  push := InstructionBytes.pushChecked_eq
  read := Memory.readChecked_toNat
  write := Memory.writeChecked_toNat
  sm83Flag := Sm83.Flag.maskChecked_eq
  sm83Step s := s.stepChecked_eq
  sm83Interrupts s := s.handleInterruptsChecked_eq
  z80Flag := Z80.Flag.maskChecked_eq
  z80Step s := s.stepChecked_eq
  busWrite := GameBoy.Bus.writeByteChecked_eq
  handheld config journal ops := by
    have hlcd := GameBoy.Machine.wellFormed_lcd_operate config journal ops
    exact ⟨GameBoy.Bus.passTimeChecked_eq hlcd, GameBoy.Machine.stepChecked_eq hlcd,
      GameBoy.Machine.stepFrameChecked_eq hlcd⟩
  cpmStep := Cpm.Machine.stepChecked_eq

end EightBit
