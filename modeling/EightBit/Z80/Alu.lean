import EightBit.Adder
import EightBit.Z80.Registers

/-!
# Arithmetic of the Z80

What arithmetic does to the register file. None of it touches memory, so each operation is a
function of the registers alone.

## Main definitions

* `flagByte`, `Registers.setFlags`: the whole flag register, and some of its flags.
* `Registers.alu`, `Registers.negate`, `Registers.decimalAdjust`: the accumulator.
* `Registers.incFlags`, `Registers.decFlags`: the flags of a byte moved by one.
* `Registers.addIndex`, `Registers.addWithCarry`, `Registers.subWithCarry`: operations on words.
* `Registers.shifted`, `Registers.shiftFlags`, `Registers.rotateA`, `Registers.bitFlags`:
  rotations, shifts and bit tests.
-/

namespace EightBit.Z80

/-- The flag register with the given flags. -/
@[inline] def flagByte (s z h pv n c : Bool) : UInt8 :=
  (if s then Flag.s.mask else 0) ||| (if z then Flag.z.mask else 0) |||
    (if h then Flag.h.mask else 0) ||| (if pv then Flag.pv.mask else 0) |||
    (if n then Flag.n.mask else 0) ||| (if c then Flag.c.mask else 0)

namespace Registers

/-- Sets or clears the flags of a list, and keeps the others. -/
def setFlags (r : Registers) (flags : List (Flag × Bool)) : Registers :=
  flags.foldl (fun r (x, on) => r.setFlag x on) r

/-- The sign, the zero flag and the parity of a byte. -/
def setResultFlags (r : Registers) (v : UInt8) : Registers :=
  r.setFlags [(.s, isNegative v), (.z, v == 0), (.pv, evenParity v)]

/-- The carry flag, where an operation uses it. -/
@[inline] def carryIn (r : Registers) (withCarry : Bool) : Bool :=
  withCarry && r.flag .c

/-- The flag register that reports a sum or a difference of bytes. -/
def sumFlags (s : CarrySum UInt8) (subtracted : Bool) : UInt8 :=
  flagByte (isNegative s.result) (s.result == 0) s.half s.overflow subtracted s.carry

/-- Adds a byte to the accumulator, and the carry if `withCarry`. -/
def add (r : Registers) (v : UInt8) (withCarry : Bool) : Registers :=
  let s := addBytes r.a v (r.carryIn withCarry)
  { r with a := s.result, f := sumFlags s false }

/-- Subtracts a byte from the accumulator, and the carry if `withCarry`. -/
def sub (r : Registers) (v : UInt8) (withCarry : Bool) : Registers :=
  let s := subBytes r.a v (r.carryIn withCarry)
  { r with a := s.result, f := sumFlags s true }

/-- Sets the flags as a subtraction would, and keeps the accumulator. -/
def compare (r : Registers) (v : UInt8) : Registers :=
  { r with f := sumFlags (subBytes r.a v false) true }

/-- Sets the accumulator to the result of a bitwise operation. -/
def withLogic (r : Registers) (a : UInt8) (half : Bool) : Registers :=
  { r with a, f := flagByte (isNegative a) (a == 0) half (evenParity a) false false }

/-- Combines the accumulator with a byte. -/
def alu (r : Registers) (op : AluOp) (v : UInt8) : Registers :=
  match op with
  | .add => r.add v false
  | .adc => r.add v true
  | .sub => r.sub v false
  | .sbc => r.sub v true
  | .and => r.withLogic (r.a &&& v) true
  | .xor => r.withLogic (r.a ^^^ v) false
  | .or => r.withLogic (r.a ||| v) false
  | .cp => r.compare v

/-- Subtracts the accumulator from zero. -/
def negate (r : Registers) : Registers :=
  let s := subBytes 0 r.a false
  { r with a := s.result, f := sumFlags s true }

/-- Corrects the accumulator after packed decimal arithmetic: the low digit when the half carry is
set or it exceeds nine, the high digit when the carry is set or the accumulator exceeds `0x99`
before any correction. The correction is subtracted after a subtraction. The half carry reports the
carry that the correction of the low digit makes. -/
def decimalAdjust (r : Registers) : Registers :=
  let subtract := r.flag .n
  let digit := r.a &&& 0x0F
  let low := r.flag .h || 0x09 < digit
  let high := r.flag .c || 0x99 < r.a
  let correction : UInt8 := (if low then 0x06 else 0) ||| (if high then 0x60 else 0)
  let a := if subtract then r.a - correction else r.a + correction
  let half := if subtract then r.flag .h && digit < 0x06 else 0x09 < digit
  ({ r with a }.setResultFlags a).setFlags [(.h, half), (.c, high)]

/-- The flags after `v` has been incremented; the carry is kept. -/
def incFlags (r : Registers) (v : UInt8) : Registers :=
  r.setFlags
    [(.s, isNegative (v + 1)), (.z, v + 1 == 0), (.h, v &&& 0x0F == 0x0F), (.pv, v == 0x7F),
      (.n, false)]

/-- The flags after `v` has been decremented; the carry is kept. -/
def decFlags (r : Registers) (v : UInt8) : Registers :=
  r.setFlags
    [(.s, isNegative (v - 1)), (.z, v - 1 == 0), (.h, v &&& 0x0F == 0), (.pv, v == 0x80),
      (.n, true)]

/-- Adds a word to the register that stands for `HL`. The half carry is that out of bit 11; sign,
zero and parity are kept. -/
def addIndex (r : Registers) (m : IndexMode) (v : UInt16) : Registers :=
  let s := addWords (r.index m) v false
  (r.setFlags [(.n, false), (.h, s.half), (.c, s.carry)]).setIndex m s.result

/-- The flag register that reports a sum or a difference of words. -/
def wordSumFlags (s : CarrySum UInt16) (subtracted : Bool) : UInt8 :=
  flagByte (s.result &&& 0x8000 != 0) (s.result == 0) s.half s.overflow subtracted s.carry

/-- Adds a word and the carry to `HL`. -/
def addWithCarry (r : Registers) (v : UInt16) : Registers :=
  let s := addWords r.hl v (r.flag .c)
  { r with f := wordSumFlags s false }.setHl s.result

/-- Subtracts a word and the carry from `HL`. -/
def subWithCarry (r : Registers) (v : UInt16) : Registers :=
  let s := subWords r.hl v (r.flag .c)
  { r with f := wordSumFlags s true }.setHl s.result

/-- Inverts the accumulator. -/
def complement (r : Registers) : Registers :=
  { r with a := ~~~r.a }.setFlags [(.h, true), (.n, true)]

/-- Sets the carry flag. -/
def setCarry (r : Registers) : Registers :=
  r.setFlags [(.c, true), (.h, false), (.n, false)]

/-- Inverts the carry flag; the half carry takes its old value. -/
def flipCarry (r : Registers) : Registers :=
  let c := r.flag .c
  r.setFlags [(.h, c), (.c, !c), (.n, false)]

/-- The byte a shift makes of `v`. -/
@[inline] def shifted (r : Registers) (op : ShiftOp) (v : UInt8) : UInt8 :=
  op.result (r.flag .c) v

/-- The flags after a shift: sign, zero and parity from the result, carry from the bit moved
out. -/
def shiftFlags (r : Registers) (op : ShiftOp) (v : UInt8) : Registers :=
  let w := r.shifted op v
  { r with f := flagByte (isNegative w) (w == 0) false (evenParity w) false (op.carryOut v) }

/-- Rotates the accumulator by an instruction without prefix, which keeps sign, zero and parity. -/
def rotateA (r : Registers) (op : ShiftOp) : Registers :=
  { r with a := r.shifted op r.a }.setFlags
    [(.h, false), (.n, false), (.c, op.carryOut r.a)]

/-- The flags after bit `k` of `v` has been tested: zero and parity report a clear bit, the sign a
set bit 7; the carry is kept. -/
def bitFlags (r : Registers) (k v : UInt8) : Registers :=
  let isSet := v &&& bitMask k != 0
  r.setFlags
    [(.z, !isSet), (.pv, !isSet), (.s, k == 7 && isSet), (.h, true), (.n, false)]

/-- Loads the accumulator from an interrupt or refresh register; the parity flag shows the saved
interrupt enable. -/
def loadSpecial (r : Registers) (v : UInt8) (iff2 : Bool) : Registers :=
  { r with a := v }.setFlags
    [(.s, isNegative v), (.z, v == 0), (.h, false), (.n, false), (.pv, iff2)]

/-- The flags after a rotation of decimal digits. -/
def digitFlags (r : Registers) : Registers :=
  (r.setResultFlags r.a).setFlags [(.h, false), (.n, false)]

/-- The flags after a byte has been taken from a device. -/
def inputFlags (r : Registers) (v : UInt8) : Registers :=
  (r.setResultFlags v).setFlags [(.h, false), (.n, false)]

end Registers

end EightBit.Z80
