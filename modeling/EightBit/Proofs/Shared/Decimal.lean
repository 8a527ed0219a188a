import EightBit.Proofs.Shared.Multibyte

/-!
# Packed decimal digits

A packed decimal byte holds two decimal digits, one in each half. The binary adder knows nothing of
them, but what it leaves in the accumulator, the half carry and the carry tells which of the digits
have to be corrected, and adding or subtracting six in each of them gives the decimal result.

## Main definitions

* `IsDecimal`, `decimal`: packed decimal bytes, and the digits to base one hundred that they are.
* `correction`, `correctedSum`, `correctedDifference`: six in each digit that needs it.

## Main results

* `decimal_correctedSum`: the corrected sum of decimal bytes.
* `lowExceeds_subBytes`, `highExceeds_subBytes`, `decimal_correctedDifference`: the corrected
  difference, for which it makes no difference whether digits above nine are corrected too.
-/

namespace EightBit

/-- Both halves of a byte are decimal digits. -/
structure IsDecimal (b : UInt8) : Prop where
  high : b.toNat / 16 < 10
  low : b.toNat % 16 < 10

theorem isDecimal_iff (b : UInt8) : IsDecimal b ↔ b.toNat / 16 < 10 ∧ b.toNat % 16 < 10 :=
  ⟨fun h => ⟨h.high, h.low⟩, fun h => ⟨h.1, h.2⟩⟩

instance (b : UInt8) : Decidable (IsDecimal b) :=
  decidable_of_iff' _ (isDecimal_iff b)

/-- Packed decimal bytes are the digits to base one hundred. -/
def decimal : DigitCode where
  radix := 100
  Valid := IsDecimal
  digit b := 10 * (b.toNat / 16) + b.toNat % 16
  one_lt_radix := by decide
  digit_lt b hb := by
    have hhigh := hb.high
    have hlow := hb.low
    omega
  digit_injective a b ha hb h := by
    have halow := ha.low
    have hblow := hb.low
    exact UInt8.toNat_inj.1 (by omega)

theorem digit_decimal (b : UInt8) : decimal.digit b = 10 * (b.toNat / 16) + b.toNat % 16 := rfl

/-- Six in each digit that needs a correction. -/
def correction (low high : Bool) : UInt8 :=
  (if low then 0x06 else 0) ||| (if high then 0x60 else 0)

theorem toNat_correction (low high : Bool) :
    (correction low high).toNat = 6 * low.toNat + 96 * high.toNat := by
  cases low <;> cases high <;> rfl

/-- Whether the low digit of a result shows that it needs a correction. -/
def lowExceeds (s : CarrySum UInt8) : Bool :=
  s.half || decide (0x09 < s.result &&& 0x0F)

/-- Whether a result shows that its high digit needs a correction. -/
def highExceeds (s : CarrySum UInt8) : Bool :=
  s.carry || decide (0x99 < s.result)

/-- A sum with its correction. -/
def correctedSum (s : CarrySum UInt8) : UInt8 :=
  s.result + correction (lowExceeds s) (highExceeds s)

/-- A difference with its correction, which the borrows alone decide. -/
def correctedDifference (s : CarrySum UInt8) : UInt8 :=
  s.result - correction s.half s.carry

theorem toNat_decide (p : Prop) [Decidable p] :
    (decide p).toNat = 1 ∧ p ∨ (decide p).toNat = 0 ∧ ¬p := by
  by_cases h : p
  · exact .inl ⟨by rw [decide_eq_true h]; rfl, h⟩
  · exact .inr ⟨by rw [decide_eq_false h]; rfl, h⟩

/-! ### Sums -/

section

variable (a b : UInt8) (c : Bool)

/-- The low digit is corrected if the low digits have a sum of two digits. -/
theorem lowExceeds_addBytes :
    lowExceeds (addBytes a b c) = decide (9 < a.toNat % 16 + b.toNat % 16 + c.toNat) := by
  have hresult := toNat_addBytes a b c
  rw [lowExceeds, half_addBytes, ← Bool.decide_or, decide_eq_decide, UInt8.lt_iff_toNat_lt,
    toNat_and_low, show (0x09 : UInt8).toNat = 9 from rfl]
  omega

/-- The high digit is corrected if the sum is more than two digits hold. -/
theorem highExceeds_addBytes :
    highExceeds (addBytes a b c) = decide (0x99 < a.toNat + b.toNat + c.toNat) := by
  have hresult := toNat_addBytes a b c
  have hr := (addBytes a b c).result.toNat_lt
  rw [highExceeds, carry_addBytes, ← Bool.decide_or, decide_eq_decide, UInt8.lt_iff_toNat_lt,
    show (0x99 : UInt8).toNat = 0x99 from rfl]
  omega

variable {a b}

/-- The correction makes the sum of decimal bytes decimal, and that of the high digit is the
carry. -/
theorem decimal_correctedSum (ha : IsDecimal a) (hb : IsDecimal b) :
    IsDecimal (correctedSum (addBytes a b c)) ∧
      decimal.digit (correctedSum (addBytes a b c)) +
          100 * (highExceeds (addBytes a b c)).toNat =
        decimal.digit a + decimal.digit b + c.toNat := by
  obtain ⟨hah, hal⟩ := ha
  obtain ⟨hbh, hbl⟩ := hb
  have hc := c.toNat_le
  have hresult := toNat_addBytes a b c
  have hlow := toNat_decide (9 < a.toNat % 16 + b.toNat % 16 + c.toNat)
  have hhigh := toNat_decide (0x99 < a.toNat + b.toNat + c.toNat)
  rw [← lowExceeds_addBytes] at hlow
  rw [← highExceeds_addBytes] at hhigh
  rw [isDecimal_iff, digit_decimal, digit_decimal, digit_decimal, correctedSum, UInt8.toNat_add,
    toNat_correction]
  omega

end

/-! ### Differences -/

section

variable {a b : UInt8} (c : Bool)

/-- The low digit of a difference of decimal bytes exceeds nine only after a borrow. -/
theorem lowExceeds_subBytes (ha : IsDecimal a) (hb : IsDecimal b) :
    lowExceeds (subBytes a b c) = (subBytes a b c).half := by
  obtain ⟨hah, hal⟩ := ha
  obtain ⟨hbh, hbl⟩ := hb
  have hresult := toNat_subBytes a b c
  rw [lowExceeds, half_subBytes, ← Bool.decide_or, decide_eq_decide, UInt8.lt_iff_toNat_lt,
    toNat_and_low, show (0x09 : UInt8).toNat = 9 from rfl]
  omega

/-- Nor does the difference exceed two digits. -/
theorem highExceeds_subBytes (ha : IsDecimal a) :
    highExceeds (subBytes a b c) = (subBytes a b c).carry := by
  obtain ⟨hah, hal⟩ := ha
  have hresult := toNat_subBytes a b c
  have hr := (subBytes a b c).result.toNat_lt
  rw [highExceeds, carry_subBytes, ← Bool.decide_or, decide_eq_decide, UInt8.lt_iff_toNat_lt,
    show (0x99 : UInt8).toNat = 0x99 from rfl]
  have hborrow := toNat_decide (a.toNat < b.toNat + c.toNat)
  rw [← carry_subBytes] at hborrow
  omega

/-- The correction makes the difference of decimal bytes decimal, and keeps the borrow. -/
theorem decimal_correctedDifference (ha : IsDecimal a) (hb : IsDecimal b) :
    IsDecimal (correctedDifference (subBytes a b c)) ∧
      decimal.digit (correctedDifference (subBytes a b c)) + decimal.digit b + c.toNat =
        decimal.digit a + 100 * (subBytes a b c).carry.toNat := by
  obtain ⟨hah, hal⟩ := ha
  obtain ⟨hbh, hbl⟩ := hb
  have hc := c.toNat_le
  have hresult := toNat_subBytes a b c
  have hlow := toNat_decide (a.toNat % 16 < b.toNat % 16 + c.toNat)
  have hhigh := toNat_decide (a.toNat < b.toNat + c.toNat)
  rw [← half_subBytes] at hlow
  rw [← carry_subBytes] at hhigh
  rw [isDecimal_iff, digit_decimal, digit_decimal, digit_decimal, correctedDifference,
    UInt8.toNat_sub, toNat_correction]
  omega

end

/-! ### Digits to base one hundred -/

section

open Accumulator

variable {R : Type} [Accumulator R] {op : R → UInt8 → R}

/-- Corrected sums add packed decimal digits. -/
theorem decimal_combines_add
    (hacc : ∀ r y, acc (op r y) = correctedSum (addBytes (acc r) y (carry r)))
    (hcarry : ∀ r y, carry (op r y) = highExceeds (addBytes (acc r) y (carry r))) :
    decimal.Combines 1 op where
  valid r y hr hy := hacc r y ▸ (decimal_correctedSum (carry r) hr hy).1
  digit r y hr hy := by
    have hsum := (decimal_correctedSum (carry r) hr hy).2
    rw [hacc, hcarry, show decimal.radix = 100 from rfl]
    omega

/-- Corrected differences subtract them. -/
theorem decimal_combines_sub
    (hacc : ∀ r y, IsDecimal (acc r) → IsDecimal y →
      acc (op r y) = correctedDifference (subBytes (acc r) y (carry r)))
    (hcarry : ∀ r y, IsDecimal (acc r) → IsDecimal y →
      carry (op r y) = (subBytes (acc r) y (carry r)).carry) :
    decimal.Combines (-1) op where
  valid r y hr hy := hacc r y hr hy ▸ (decimal_correctedDifference (carry r) hr hy).1
  digit r y hr hy := by
    have hdifference := (decimal_correctedDifference (carry r) hr hy).2
    rw [hacc r y hr hy, hcarry r y hr hy, show decimal.radix = 100 from rfl]
    omega

end

end EightBit
