import EightBit.Word

/-!
# The binary adder

Addition and subtraction of bytes and words with a carry, together with the conditions that flags
report: a carry between the nibbles (the half carry; for words, out of bit 11), a carry out of the
whole operand, and a signed result that does not fit. For a subtraction the carries are borrows.

## Main definitions

* `CarrySum`: a result and its conditions.
* `addBytes`, `subBytes`, `addWords`, `subWords`: the four operations.

## Main results

* `toNat_addBytes`, `toNat_subBytes`, `toNat_addWords`, `toNat_subWords`: the result and the carry
  together are the sum or the difference of the operands as numbers.
* `carry_addBytes_eq_or`, `carry_subBytes_eq_or`: the carry of an operation in two steps.
-/

namespace EightBit

/-- The outcome of an addition or subtraction on operands of type `W`. -/
structure CarrySum (W : Type) where
  /-- The result, modulo the size of the operands. -/
  result : W
  /-- A carry or borrow between the nibbles of the operand's upper byte. -/
  half : Bool
  /-- A carry or borrow out of the operand. -/
  carry : Bool
  /-- The signed result does not fit the operand. -/
  overflow : Bool
  deriving DecidableEq

/-- The sum of the low nibbles of two bytes and a carry. -/
@[inline] def nibbleSum (a b : UInt8) (c : Bool) : UInt8 :=
  (a &&& 0x0F) + (b &&& 0x0F) + carryByte c

/-- The sum of the low twelve bits of two words and a carry. -/
@[inline] def lowSum (a b : UInt16) (c : Bool) : UInt16 :=
  (a &&& 0x0FFF) + (b &&& 0x0FFF) + (carryByte c).toUInt16

/-- `a + b + c`. The signed sum does not fit when the operands share a sign that the result
lacks. -/
def addBytes (a b : UInt8) (c : Bool) : CarrySum UInt8 :=
  let result := a + b + carryByte c
  { result
    half := 0x0F < nibbleSum a b c
    carry := 0xFF < a.toNat + b.toNat + c.toNat
    overflow := isNegative ((a ^^^ result) &&& (b ^^^ result)) }

/-- `a - b - c`. A borrow into bit 4 shows in the exclusive or of operands and result. The signed
difference does not fit when the operands differ in sign and the result has that of `b`. -/
def subBytes (a b : UInt8) (c : Bool) : CarrySum UInt8 :=
  let result := a - b - carryByte c
  { result
    half := (a ^^^ b ^^^ result) &&& 0x10 != 0
    carry := a.toNat < b.toNat + c.toNat
    overflow := isNegative ((a ^^^ b) &&& (a ^^^ result)) }

/-- `a + b + c` on words. -/
def addWords (a b : UInt16) (c : Bool) : CarrySum UInt16 :=
  let result := a + b + (carryByte c).toUInt16
  { result
    half := 0x0FFF < lowSum a b c
    carry := 0xFFFF < a.toNat + b.toNat + c.toNat
    overflow := (a ^^^ result) &&& (b ^^^ result) &&& 0x8000 != 0 }

/-- `a - b - c` on words. -/
def subWords (a b : UInt16) (c : Bool) : CarrySum UInt16 :=
  let result := a - b - (carryByte c).toUInt16
  { result
    half := (a ^^^ b ^^^ result) &&& 0x1000 != 0
    carry := a.toNat < b.toNat + c.toNat
    overflow := (a ^^^ b) &&& (a ^^^ result) &&& 0x8000 != 0 }

/-! ### The carries as numbers -/

theorem toNat_carryByte (c : Bool) : (carryByte c).toNat = c.toNat := by
  cases c <;> rfl

/-- The result and the carry of an addition are the sum of the operands. -/
theorem toNat_addBytes (a b : UInt8) (c : Bool) :
    (addBytes a b c).result.toNat + 256 * (addBytes a b c).carry.toNat =
      a.toNat + b.toNat + c.toNat := by
  have ha := a.toNat_lt
  have hb := b.toNat_lt
  have hc := c.toNat_le
  have hr : (addBytes a b c).result.toNat = (a.toNat + b.toNat + c.toNat) % 256 := by
    simp [addBytes, UInt8.toNat_add, toNat_carryByte]
  have hk : (addBytes a b c).carry = decide (0xFF < a.toNat + b.toNat + c.toNat) := rfl
  rw [hr, hk]
  by_cases h : 0xFF < a.toNat + b.toNat + c.toNat <;> simp only [h, decide_true, decide_false,
    Bool.toNat_true, Bool.toNat_false] <;> omega

/-- The result of a subtraction is short of the difference by what was borrowed. -/
theorem toNat_subBytes (a b : UInt8) (c : Bool) :
    (subBytes a b c).result.toNat + b.toNat + c.toNat =
      a.toNat + 256 * (subBytes a b c).carry.toNat := by
  have ha := a.toNat_lt
  have hb := b.toNat_lt
  have hc := c.toNat_le
  have hr : (subBytes a b c).result.toNat =
      (256 - c.toNat + (256 - b.toNat + a.toNat) % 256) % 256 := by
    simp [subBytes, UInt8.toNat_sub, toNat_carryByte]
  have hk : (subBytes a b c).carry = decide (a.toNat < b.toNat + c.toNat) := rfl
  rw [hr, hk]
  by_cases h : a.toNat < b.toNat + c.toNat <;> simp only [h, decide_true, decide_false,
    Bool.toNat_true, Bool.toNat_false] <;> omega

/-- The carry of an addition in two steps: the operands overflow, or the carry makes their sum do
so. -/
theorem carry_addBytes_eq_or (a b : UInt8) (c : Bool) :
    (addBytes a b c).carry = (a.toBitVec.uaddOverflow b.toBitVec ||
      (a + b).toBitVec.uaddOverflow (carryByte c).toBitVec) := by
  have ha := a.toNat_lt
  have hb := b.toNat_lt
  have hc := c.toNat_le
  have hsum : (a + b).toNat = (a.toNat + b.toNat) % 256 := UInt8.toNat_add a b
  simp only [addBytes, BitVec.uaddOverflow, UInt8.toNat_toBitVec, toNat_carryByte, hsum,
    ← Bool.decide_or, decide_eq_decide]
  omega

/-- The borrow of a subtraction in two steps: the difference overflows, or the borrow makes it do
so. -/
theorem carry_subBytes_eq_or (a b : UInt8) (c : Bool) :
    (subBytes a b c).carry = (a.toBitVec.usubOverflow b.toBitVec ||
      (a - b).toBitVec.usubOverflow (carryByte c).toBitVec) := by
  have ha := a.toNat_lt
  have hb := b.toNat_lt
  have hc := c.toNat_le
  have hdifference : (a - b).toNat = (256 - b.toNat + a.toNat) % 256 := UInt8.toNat_sub a b
  simp only [subBytes, BitVec.usubOverflow, UInt8.toNat_toBitVec, toNat_carryByte, hdifference,
    ← Bool.decide_or, decide_eq_decide]
  omega

/-- The result and the carry of an addition of words are the sum of the operands. -/
theorem toNat_addWords (a b : UInt16) (c : Bool) :
    (addWords a b c).result.toNat + 65536 * (addWords a b c).carry.toNat =
      a.toNat + b.toNat + c.toNat := by
  have ha := a.toNat_lt
  have hb := b.toNat_lt
  have hc := c.toNat_le
  have hr : (addWords a b c).result.toNat = (a.toNat + b.toNat + c.toNat) % 65536 := by
    simp [addWords, UInt16.toNat_add, toNat_carryByte]
  have hk : (addWords a b c).carry = decide (0xFFFF < a.toNat + b.toNat + c.toNat) := rfl
  rw [hr, hk]
  by_cases h : 0xFFFF < a.toNat + b.toNat + c.toNat <;> simp only [h, decide_true, decide_false,
    Bool.toNat_true, Bool.toNat_false] <;> omega

/-- The result of a subtraction of words is short of the difference by what was borrowed. -/
theorem toNat_subWords (a b : UInt16) (c : Bool) :
    (subWords a b c).result.toNat + b.toNat + c.toNat =
      a.toNat + 65536 * (subWords a b c).carry.toNat := by
  have ha := a.toNat_lt
  have hb := b.toNat_lt
  have hc := c.toNat_le
  have hr : (subWords a b c).result.toNat =
      (65536 - c.toNat + (65536 - b.toNat + a.toNat) % 65536) % 65536 := by
    simp [subWords, UInt16.toNat_sub, toNat_carryByte]
  have hk : (subWords a b c).carry = decide (a.toNat < b.toNat + c.toNat) := rfl
  rw [hr, hk]
  by_cases h : a.toNat < b.toNat + c.toNat <;> simp only [h, decide_true, decide_false,
    Bool.toNat_true, Bool.toNat_false] <;> omega

end EightBit
