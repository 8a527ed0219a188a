import EightBit.Z80.Alu
import EightBit.Z80.Cpu
import EightBit.Z80.Instruction

/-!
# Block instructions of the Z80

A block instruction handles one byte and moves its pointers up or down. Its repeating form leaves
the program counter on itself until the count is used up, so that each byte is a step of its own.

## Main definitions

* `Board.copyByte`, `Board.compareByte`, `Board.inputByte`, `Board.outputByte`: one byte of each
  kind, and whether the repeating form goes on.
* `Board.block`: a block instruction.
-/

namespace EightBit.Z80.Board

variable {β : Type} [Bus β]

/-- What is added to a pointer that moves up or down. -/
@[inline] def stride (increment : Bool) : UInt16 :=
  if increment then 1 else 0xFFFF

/-- What a block instruction costs beyond its base when it repeats. -/
def repeatCost : Nat := 5

/-- Copies a byte from `HL` to `DE` and counts it in `BC`. -/
def copyByte (s : Board β) (increment : Bool) : Bool × Board β :=
  let r := s.cpu.regs
  let count := r.bc - 1
  let s := s.store r.de (s.load r.hl)
  let s := s.mapRegs fun r =>
    (((r.setHl (r.hl + stride increment)).setDe (r.de + stride increment)).setBc count).setFlags
      [(.h, false), (.n, false), (.pv, count != 0)]
  (count != 0, s)

/-- Compares the accumulator with the byte at `HL` and counts it in `BC`. The carry is kept. -/
def compareByte (s : Board β) (increment : Bool) : Bool × Board β :=
  let r := s.cpu.regs
  let count := r.bc - 1
  let d := subBytes r.a (s.load r.hl) false
  let s := s.mapRegs fun r =>
    ((r.setHl (r.hl + stride increment)).setBc count).setFlags
      [(.s, isNegative d.result), (.z, d.result == 0), (.h, d.half), (.pv, count != 0),
        (.n, true)]
  (count != 0 && d.result != 0, s)

/-- The flags after a byte has been exchanged with a device: sign and zero show the count. -/
def countFlags (r : Registers) : Registers :=
  r.setFlags [(.z, r.b == 0), (.s, isNegative r.b), (.n, true)]

/-- Takes a byte from the device in `BC` to `HL`, and counts it in `B`. -/
def inputByte (s : Board β) (increment : Bool) : Bool × Board β :=
  let r := s.cpu.regs
  let (v, bus) := portIn s.bus r.bc
  let s := { s with bus := write bus r.hl v }
  let s := s.mapRegs fun r =>
    countFlags { r.setHl (r.hl + stride increment) with b := r.b - 1 }
  (r.b - 1 != 0, s)

/-- Counts a byte in `B`, and then gives the byte at `HL` to the device in `BC`. -/
def outputByte (s : Board β) (increment : Bool) : Bool × Board β :=
  let r := s.cpu.regs
  let v := s.load r.hl
  let b := r.b - 1
  let s := { s with bus := portOut s.bus (word b r.c) v }
  let s := s.mapRegs fun r =>
    countFlags { r.setHl (r.hl + stride increment) with b := b }
  (b != 0, s)

/-- A block instruction. A repeating one that goes on returns to its own opcode. -/
def block (s : Board β) (op : BlockOp) (increment repeats : Bool) : Board β :=
  let (again, s) :=
    match op with
    | .load => s.copyByte increment
    | .compare => s.compareByte increment
    | .input => s.inputByte increment
    | .output => s.outputByte increment
  if repeats && again then (s.jumpTo (s.cpu.regs.pc - 2)).charge repeatCost else s

end EightBit.Z80.Board
