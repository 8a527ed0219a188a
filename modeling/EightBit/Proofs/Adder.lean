import EightBit.Adder
import EightBit.Proofs.Bits
import Mathlib.Algebra.Ring.Int.Defs
import Mathlib.Algebra.Ring.Nat

/-!
# What the adder reports

Besides its result the adder of bytes reports three conditions, which it finds in the bits of the
operands and of the result. As numbers they say this: the half carry that the low digits of the
operands leave one digit, the carry that the operands leave a byte, and the overflow that their
signed values leave the signed values of a byte. For a difference the carries are borrows.

## Main definitions

* `signedByte`, `fitsSigned`: a byte read as a two's complement number, and the numbers that so many
  bytes stand for.

## Main results

* `half_addBytes`, `half_subBytes`: the half carry.
* `carry_addBytes`, `carry_subBytes`: the carry.
* `overflow_addBytes`, `overflow_subBytes`: the overflow.
-/

namespace EightBit

/-! ### Bits as numbers -/

@[simp] theorem hasBit_xor (a b : UInt8) (k : Nat) :
    hasBit (a ^^^ b) k = (hasBit a k ^^ hasBit b k) := by
  rw [hasBit, UInt8.toBitVec_xor, BitVec.getLsbD_xor]
  rfl

/-- A bit is a binary digit of the number. -/
theorem hasBit_eq_decide (b : UInt8) (k : Nat) :
    hasBit b k = decide (b.toNat / 2 ^ k % 2 = 1) :=
  Nat.testBit_eq_decide_div_mod_eq

/-- The exclusive or of binary digits is the last digit of their sum. -/
theorem xor_decide_odd (m n : Nat) :
    (decide (m % 2 = 1) ^^ decide (n % 2 = 1)) = decide ((m + n) % 2 = 1) := by
  rcases Nat.mod_two_eq_zero_or_one m with hm | hm <;>
    rcases Nat.mod_two_eq_zero_or_one n with hn | hn <;> simp [Nat.add_mod, hm, hn]

theorem toNat_and_low (b : UInt8) : (b &&& 0x0F).toNat = b.toNat % 16 := by
  rw [UInt8.toNat_and]
  exact Nat.and_two_pow_sub_one_eq_mod _ 4

/-- The sign is the highest bit. -/
theorem isNegative_eq_hasBit (b : UInt8) : isNegative b = hasBit b 7 :=
  and_mask_bne_zero b (by decide)

/-- The negative bytes are those of the upper half. -/
theorem isNegative_iff (b : UInt8) : isNegative b = true ↔ 128 ≤ b.toNat := by
  have hb := b.toNat_lt
  rw [isNegative_eq_hasBit, hasBit_eq_decide, decide_eq_true_iff]
  omega

/-- An exclusive or is negative if exactly one of its operands is. -/
theorem isNegative_xor_iff (a b : UInt8) :
    isNegative (a ^^^ b) = true ↔
      128 ≤ a.toNat ∧ b.toNat < 128 ∨ a.toNat < 128 ∧ 128 ≤ b.toNat := by
  rw [isNegative_eq_hasBit, hasBit_xor, ← isNegative_eq_hasBit, ← isNegative_eq_hasBit,
    bne_iff_ne, ne_eq, Bool.eq_iff_iff, isNegative_iff, isNegative_iff]
  omega

theorem isNegative_and_iff (a b : UInt8) :
    isNegative (a &&& b) = true ↔ isNegative a = true ∧ isNegative b = true := by
  rw [isNegative_eq_hasBit, hasBit_and, ← isNegative_eq_hasBit, ← isNegative_eq_hasBit,
    Bool.and_eq_true]

/-! ### Carries -/

section

variable (a b : UInt8) (c : Bool)

/-- The half carry says that the sum of the low digits is more than a digit. -/
theorem half_addBytes :
    (addBytes a b c).half = decide (15 < a.toNat % 16 + b.toNat % 16 + c.toNat) := by
  have hc := c.toNat_le
  have hsum : (nibbleSum a b c).toNat = a.toNat % 16 + b.toNat % 16 + c.toNat := by
    rw [nibbleSum, UInt8.toNat_add, UInt8.toNat_add, toNat_and_low, toNat_and_low, toNat_carryByte]
    omega
  rw [← hsum]
  rfl

/-- The half borrow says that the low digit of the first operand is less than what is subtracted
from it. -/
theorem half_subBytes :
    (subBytes a b c).half = decide (a.toNat % 16 < b.toNat % 16 + c.toNat) := by
  have hresult := toNat_subBytes a b c
  have hc := c.toNat_le
  have hbits : (subBytes a b c).half = hasBit (a ^^^ b ^^^ (subBytes a b c).result) 4 :=
    and_mask_bne_zero _ (by decide)
  rw [hbits, hasBit_xor, hasBit_xor, hasBit_eq_decide, hasBit_eq_decide, hasBit_eq_decide,
    xor_decide_odd, xor_decide_odd, decide_eq_decide]
  omega

theorem carry_addBytes :
    (addBytes a b c).carry = decide (256 ≤ a.toNat + b.toNat + c.toNat) := rfl

theorem carry_subBytes :
    (subBytes a b c).carry = decide (a.toNat < b.toNat + c.toNat) := rfl

end

/-! ### Signed values -/

/-- A byte read as a two's complement number. -/
def signedByte (b : UInt8) : Int :=
  if isNegative b then b.toNat - 256 else b.toNat

/-- Whether a number is one of the two's complement numbers of `n` bytes. -/
def fitsSigned (n : Nat) (t : Int) : Bool :=
  -256 ^ n ≤ 2 * t && 2 * t < 256 ^ n

theorem signedByte_neg_iff (b : UInt8) : signedByte b < 0 ↔ isNegative b = true := by
  have hb := b.toNat_lt
  rw [signedByte]
  split
  next h => exact iff_of_true (by omega) h
  next h => exact iff_of_false (by omega) h

theorem signedByte_cases (b : UInt8) :
    128 ≤ b.toNat ∧ b.toNat < 256 ∧ signedByte b = b.toNat - 256 ∨
      b.toNat < 128 ∧ signedByte b = b.toNat := by
  rw [signedByte]
  by_cases h : isNegative b = true
  · exact .inl ⟨(isNegative_iff b).1 h, b.toNat_lt, if_pos h⟩
  · exact .inr ⟨Nat.not_le.1 (mt (isNegative_iff b).2 h), if_neg h⟩

theorem fitsSigned_one_iff (t : Int) : fitsSigned 1 t = true ↔ -128 ≤ t ∧ t < 128 := by
  rw [fitsSigned, Bool.and_eq_true, decide_eq_true_iff, decide_eq_true_iff]
  omega

section

variable (a b : UInt8) (c : Bool)

/-- A signed sum overflows if it is not the signed value of a byte. -/
theorem overflow_addBytes :
    (addBytes a b c).overflow = !fitsSigned 1 (signedByte a + signedByte b + c.toNat) := by
  have hresult := toNat_addBytes a b c
  have hr := (addBytes a b c).result.toNat_lt
  have hk := (addBytes a b c).carry.toNat_le
  have hc := c.toNat_le
  have ha := signedByte_cases a
  have hb := signedByte_cases b
  -- The sign of the result is neither that of the one operand nor that of the other.
  have hsigns := isNegative_and_iff (a ^^^ (addBytes a b c).result) (b ^^^ (addBytes a b c).result)
  rw [isNegative_xor_iff, isNegative_xor_iff] at hsigns
  have hoverflow : (addBytes a b c).overflow = true ↔ _ := hsigns
  rw [Bool.eq_iff_iff, hoverflow, Bool.not_eq_true', ← Bool.not_eq_true, fitsSigned_one_iff]
  omega

/-- So does a signed difference. -/
theorem overflow_subBytes :
    (subBytes a b c).overflow = !fitsSigned 1 (signedByte a - signedByte b - c.toNat) := by
  have hresult := toNat_subBytes a b c
  have hr := (subBytes a b c).result.toNat_lt
  have hk := (subBytes a b c).carry.toNat_le
  have hc := c.toNat_le
  have ha := signedByte_cases a
  have hb := signedByte_cases b
  -- The sign of the first operand is neither that of the second nor that of the result.
  have hsigns := isNegative_and_iff (a ^^^ b) (a ^^^ (subBytes a b c).result)
  rw [isNegative_xor_iff, isNegative_xor_iff] at hsigns
  have hoverflow : (subBytes a b c).overflow = true ↔ _ := hsigns
  rw [Bool.eq_iff_iff, hoverflow, Bool.not_eq_true', ← Bool.not_eq_true, fitsSigned_one_iff]
  omega

end

end EightBit
