import EightBit.Adder
import EightBit.Sm83.Registers

/-!
# Arithmetic of the SM83

What arithmetic does to the register file: the accumulator and the flags. None of it touches
memory, so each operation is a function of the registers alone.

## Main definitions

* `Registers.add`, `Registers.sub`, `Registers.compare`, `Registers.alu`: the accumulator and a
  byte.
* `Registers.decimalAdjust`: correction after packed decimal arithmetic.
* `Registers.incFlags`, `Registers.decFlags`: the flags of a byte moved by one.
* `Registers.addHl`, `Registers.spOffset`, `Registers.spOffsetFlags`: additions on words.
* `Registers.shifted`, `Registers.shiftFlags`, `Registers.rotateA`, `Registers.bitFlags`:
  rotations, shifts and bit tests.

## Main results

* `Registers.add_eq`, `Registers.sub_eq`: the carries of the accumulator and a byte as overflows.
-/

namespace EightBit.Sm83.Registers

/-- The carry flag, where an operation uses it. -/
@[inline] def carryIn (r : Registers) (withCarry : Bool) : Bool :=
  withCarry && r.flag .c

/-- Adds a byte to the accumulator, and the carry if `withCarry`. -/
def add (r : Registers) (v : UInt8) (withCarry : Bool) : Registers :=
  let s := addBytes r.a v (r.carryIn withCarry)
  { r with a := s.result, f := flagByte (s.result == 0) false s.half s.carry }

/-- The registers after the flags of `r.a - v` have been set, and the accumulator to `a`. -/
@[inline] def withDifference (r : Registers) (s : CarrySum UInt8) (a : UInt8) : Registers :=
  { r with a, f := flagByte (s.result == 0) true s.half s.carry }

/-- Subtracts a byte from the accumulator, and the carry if `withCarry`. -/
def sub (r : Registers) (v : UInt8) (withCarry : Bool) : Registers :=
  let s := subBytes r.a v (r.carryIn withCarry)
  r.withDifference s s.result

/-- The processor adds the operand first and then the carry. There is a carry out if either sum
overflows. -/
theorem add_eq (r : Registers) (v : UInt8) (withCarry : Bool) :
    r.add v withCarry =
      let carry := carryByte (r.carryIn withCarry)
      { r with
        a := r.a + v + carry
        f := flagByte (r.a + v + carry == 0) false (0x0F < nibbleSum r.a v (r.carryIn withCarry))
          (r.a.toBitVec.uaddOverflow v.toBitVec ||
            (r.a + v).toBitVec.uaddOverflow carry.toBitVec) } := by
  dsimp only
  rw [← carry_addBytes_eq_or]
  rfl

/-- It subtracts the operand first and then the borrow. There is a borrow out if either difference
overflows. -/
theorem sub_eq (r : Registers) (v : UInt8) (withCarry : Bool) :
    r.sub v withCarry =
      let borrow := carryByte (r.carryIn withCarry)
      let result := r.a - v - borrow
      { r with
        a := result
        f := flagByte (result == 0) true ((r.a ^^^ v ^^^ result) &&& 0x10 != 0)
          (r.a.toBitVec.usubOverflow v.toBitVec ||
            (r.a - v).toBitVec.usubOverflow borrow.toBitVec) } := by
  dsimp only
  rw [← carry_subBytes_eq_or]
  rfl

/-- Sets the flags as a subtraction would, and keeps the accumulator. -/
def compare (r : Registers) (v : UInt8) : Registers :=
  r.withDifference (subBytes r.a v false) r.a

/-- Sets the accumulator to the result of a bitwise operation. -/
@[inline] def withLogic (r : Registers) (a : UInt8) (half : Bool) : Registers :=
  { r with a, f := flagByte (a == 0) false half false }

/-- Combines the accumulator with a byte. -/
def alu (r : Registers) (op : AluOp) (v : UInt8) : Registers :=
  match op with
  | .add => r.add v false
  | .adc => r.add v true
  | .sub => r.sub v false
  | .sbc => r.sub v true
  | .and => r.withLogic (r.a &&& v) true
  | .xor => r.withLogic (r.a ^^^ v) false
  | .or => r.withLogic (r.a ||| v) false
  | .cp => r.compare v

/-- Corrects the accumulator after packed decimal arithmetic. After an addition the low digit is
corrected when the half carry is set or it exceeds nine, the high digit when the carry is set or
the accumulator exceeds `0x99` before any correction. After a subtraction only the two carries
select the correction. -/
def decimalAdjust (r : Registers) : Registers :=
  let subtract := r.flag .n
  let low := r.flag .h || (!subtract && 0x09 < r.a &&& 0x0F)
  let high := r.flag .c || (!subtract && 0x99 < r.a)
  let correction : UInt8 := (if low then 0x06 else 0) ||| (if high then 0x60 else 0)
  let a := if subtract then r.a - correction else r.a + correction
  { r with a, f := flagByte (a == 0) subtract false high }

/-- The flags after `v` has been incremented; the carry is kept. -/
def incFlags (r : Registers) (v : UInt8) : Registers :=
  { r with f := flagByte (v + 1 == 0) false (v &&& 0x0F == 0x0F) (r.flag .c) }

/-- The flags after `v` has been decremented; the carry is kept. -/
def decFlags (r : Registers) (v : UInt8) : Registers :=
  { r with f := flagByte (v - 1 == 0) true (v &&& 0x0F == 0) (r.flag .c) }

/-- Adds a word to `HL`. The zero flag is kept; the others report the carries out of bits 11 and
15. -/
def addHl (r : Registers) (v : UInt16) : Registers :=
  let s := addWords r.hl v false
  { r with f := flagByte (r.flag .z) false s.half s.carry }.setHl s.result

/-- The stack pointer moved by a signed byte. -/
@[inline] def spOffset (r : Registers) (d : UInt8) : UInt16 :=
  r.sp + displacement d

/-- The flags after the stack pointer has been moved by a signed byte: the unsigned carries of its
lower byte, zero and subtraction clear. -/
def spOffsetFlags (r : Registers) (d : UInt8) : Registers :=
  let s := addBytes (loByte r.sp) d false
  { r with f := flagByte false false s.half s.carry }

/-- Inverts the accumulator. -/
def complement (r : Registers) : Registers :=
  ({ r with a := ~~~r.a }.setFlag .n true).setFlag .h true

/-- Sets the carry flag. -/
def setCarry (r : Registers) : Registers :=
  ((r.setFlag .n false).setFlag .h false).setFlag .c true

/-- Inverts the carry flag. -/
def flipCarry (r : Registers) : Registers :=
  ((r.setFlag .n false).setFlag .h false).setFlag .c (!r.flag .c)

/-- The byte a shift of the second page makes of `v`. -/
@[inline] def shifted (r : Registers) (op : ShiftOp) (v : UInt8) : UInt8 :=
  op.result (r.flag .c) v

/-- The flags after a shift of the second page: zero from the result, carry from the bit moved
out. -/
def shiftFlags (r : Registers) (op : ShiftOp) (v : UInt8) : Registers :=
  { r with f := flagByte (r.shifted op v == 0) false false (op.carryOut v) }

/-- Rotates the accumulator by an instruction of the first page, which always clears the zero
flag. -/
def rotateA (r : Registers) (op : ShiftOp) : Registers :=
  { r with a := r.shifted op r.a, f := flagByte false false false (op.carryOut r.a) }

/-- The flags after bit `k` of `v` has been tested; the carry is kept. -/
def bitFlags (r : Registers) (k v : UInt8) : Registers :=
  ((r.setFlag .z (v &&& bitMask k == 0)).setFlag .n false).setFlag .h true

end EightBit.Sm83.Registers
