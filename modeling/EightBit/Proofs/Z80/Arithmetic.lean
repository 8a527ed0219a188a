import EightBit.Proofs.Shared.Decimal
import EightBit.Proofs.Z80.Flags

/-!
# Numbers of several bytes on the Z80

The instructions that add and subtract with the carry are the steps of arithmetic on binary numbers,
and followed by the decimal correction those of arithmetic on packed decimal numbers. The correction
looks at the digits after a subtraction too, which makes no difference to decimal operands. Sign and
overflow are those of the byte combined last.

## Main definitions

* `Registers.addDecimal`, `Registers.subDecimal`: an addition and a subtraction with correction.
* `Registers.ShowsSign`: what sign and overflow should be after a chain.

## Main results

* `Registers.combines_adc`, `Registers.combines_sbc`: binary digits.
* `Registers.combines_addDecimal`, `Registers.combines_subDecimal`: packed decimal digits.
* `Registers.showsSign_chain_adc`, `Registers.showsSign_chain_sbc`: sign and overflow of a binary
  number.
-/

namespace EightBit.Z80

instance : Accumulator Registers where
  acc r := r.a
  load r v := { r with a := v }
  carry r := r.flag .c
  acc_load _ _ := rfl
  carry_load _ _ := rfl

namespace Registers

/-- Adds a byte and the carry, and corrects the digits. -/
def addDecimal (r : Registers) (v : UInt8) : Registers :=
  (r.alu .adc v).decimalAdjust

/-- Subtracts a byte and the carry, and corrects the digits. -/
def subDecimal (r : Registers) (v : UInt8) : Registers :=
  (r.alu .sbc v).decimalAdjust

section

variable (r : Registers) (v : UInt8)

theorem flag_adc (x : Flag) :
    (r.alu .adc v).flag x =
      let s := addBytes r.a v (r.flag .c)
      match x with
      | .s => isNegative s.result
      | .z => s.result == 0
      | .h => s.half
      | .pv => s.overflow
      | .n => false
      | .c => s.carry :=
  flag_of_flagByte _ rfl x

theorem flag_sbc (x : Flag) :
    (r.alu .sbc v).flag x =
      let s := subBytes r.a v (r.flag .c)
      match x with
      | .s => isNegative s.result
      | .z => s.result == 0
      | .h => s.half
      | .pv => s.overflow
      | .n => true
      | .c => s.carry :=
  flag_of_flagByte _ rfl x

theorem a_decimalAdjust :
    r.decimalAdjust.a =
      let low := r.flag .h || decide (0x09 < r.a &&& 0x0F)
      let high := r.flag .c || decide (0x99 < r.a)
      if r.flag .n then r.a - correction low high else r.a + correction low high := by
  rw [decimalAdjust, setFlags_eq, setResultFlags, setFlags_eq]
  rfl

theorem carry_decimalAdjust :
    r.decimalAdjust.flag .c = (r.flag .c || decide (0x99 < r.a)) := by
  rw [decimalAdjust]
  simp

theorem a_addDecimal : (r.addDecimal v).a = correctedSum (addBytes r.a v (r.flag .c)) := by
  rw [addDecimal, a_decimalAdjust]
  simp only [flag_adc]
  rfl

theorem carry_addDecimal :
    (r.addDecimal v).flag .c = highExceeds (addBytes r.a v (r.flag .c)) := by
  rw [addDecimal, carry_decimalAdjust, flag_adc]
  rfl

variable {r v}

theorem a_subDecimal (ha : IsDecimal r.a) (hv : IsDecimal v) :
    (r.subDecimal v).a = correctedDifference (subBytes r.a v (r.flag .c)) := by
  rw [correctedDifference, ← lowExceeds_subBytes _ ha hv, ← highExceeds_subBytes _ ha, subDecimal,
    a_decimalAdjust]
  simp only [flag_sbc]
  rfl

theorem carry_subDecimal (ha : IsDecimal r.a) :
    (r.subDecimal v).flag .c = (subBytes r.a v (r.flag .c)).carry := by
  rw [← highExceeds_subBytes _ ha, subDecimal, carry_decimalAdjust, flag_sbc]
  rfl

end

/-- `ADC` adds binary digits. -/
theorem combines_adc : binary.Combines 1 (Registers.alu · .adc) :=
  binary_combines_add (fun _ _ => rfl) fun r v => r.flag_adc v .c

/-- `SBC` subtracts binary digits. -/
theorem combines_sbc : binary.Combines (-1) (Registers.alu · .sbc) :=
  binary_combines_sub (fun _ _ => rfl) fun r v => r.flag_sbc v .c

/-- `ADC` and `DAA` add packed decimal digits. -/
theorem combines_addDecimal : decimal.Combines 1 addDecimal :=
  decimal_combines_add a_addDecimal carry_addDecimal

/-- `SBC` and `DAA` subtract packed decimal digits. -/
theorem combines_subDecimal : decimal.Combines (-1) subDecimal :=
  decimal_combines_sub (fun _ _ => a_subDecimal) fun _ _ ha _ => carry_subDecimal ha

/-! ### Sign and overflow -/

/-- After a chain of operations the flags show the sign of the number that it made, and whether the
exact result does not fit. -/
structure ShowsSign (made : List UInt8 × Registers) (exact : Int) : Prop where
  sign : made.2.flag .s = decide (signedValue made.1 < 0)
  overflow : made.2.flag .pv = !fitsSigned made.1.length exact

variable {xs ys : List UInt8}

/-- An operation that shows sign and overflow of bytes shows those of numbers, since the bytes
combined last decide both. -/
theorem showsSign_chain {sign : Int} {op : Registers → UInt8 → Registers}
    (h : binary.Combines sign op) (hsign : ∀ r v, (op r v).flag .s = isNegative (op r v).a)
    (hoverflow : ∀ r v, (op r v).flag .pv =
      !fitsSigned 1 (signedByte r.a + sign * (signedByte v + (r.flag .c).toNat)))
    (hlen : xs.length = ys.length) (hne : xs ≠ []) (r : Registers) :
    ShowsSign (chain op r xs ys)
      (signedValue xs + sign * (signedValue ys + (r.flag .c).toNat)) := by
  obtain ⟨xs, x, ys, y, rfl, rfl, hlow⟩ := exists_concat hlen hne
  rw [chain_concat _ _ hlow]
  constructor
  · rw [hsign, Bool.eq_iff_iff, decide_eq_true_iff, signedValue_concat_neg_iff]
    rfl
  · rw [hoverflow, List.length_append, length_chain _ _ hlow, List.length_singleton]
    exact congrArg not (h.fitsSigned_concat hlow x y r).symm

/-- The sign and the overflow of a sum. -/
theorem showsSign_chain_adc (hlen : xs.length = ys.length) (hne : xs ≠ []) (r : Registers) :
    ShowsSign (chain (Registers.alu · .adc) r xs ys)
      (signedValue xs + signedValue ys + (r.flag .c).toNat) := by
  rw [Int.add_assoc, ← Int.one_mul (signedValue ys + _)]
  refine showsSign_chain combines_adc (fun r v => r.flag_adc v .s) (fun r v => ?_) hlen hne r
  rw [Int.one_mul, ← Int.add_assoc, ← overflow_addBytes]
  exact r.flag_adc v .pv

/-- The sign and the overflow of a difference. -/
theorem showsSign_chain_sbc (hlen : xs.length = ys.length) (hne : xs ≠ []) (r : Registers) :
    ShowsSign (chain (Registers.alu · .sbc) r xs ys)
      (signedValue xs - signedValue ys - (r.flag .c).toNat) := by
  rw [Int.sub_sub, Int.sub_eq_add_neg, ← Int.neg_one_mul]
  refine showsSign_chain combines_sbc (fun r v => r.flag_sbc v .s) (fun r v => ?_) hlen hne r
  rw [Int.neg_one_mul, ← Int.sub_eq_add_neg, ← Int.sub_sub, ← overflow_subBytes]
  exact r.flag_sbc v .pv

end Registers

end EightBit.Z80
