import EightBit.Proofs.Shared.Decimal
import EightBit.Proofs.Sm83.Flags

/-!
# Numbers of several bytes on the SM83

The instructions that add and subtract with the carry are the steps of arithmetic on binary numbers,
and followed by the decimal correction those of arithmetic on packed decimal numbers. After a
subtraction the correction looks at the two borrows only.

## Main definitions

* `Registers.addDecimal`, `Registers.subDecimal`: an addition and a subtraction with correction.

## Main results

* `Registers.combines_adc`, `Registers.combines_sbc`: binary digits.
* `Registers.combines_addDecimal`, `Registers.combines_subDecimal`: packed decimal digits.
-/

namespace EightBit.Sm83

instance : Accumulator Registers where
  acc r := r.a
  load r v := { r with a := v }
  carry r := r.flag .c
  acc_load _ _ := rfl
  carry_load _ _ := rfl

namespace Registers

/-- Adds a byte and the carry, and corrects the digits. -/
def addDecimal (r : Registers) (v : UInt8) : Registers :=
  (r.alu .adc v).decimalAdjust

/-- Subtracts a byte and the carry, and corrects the digits. -/
def subDecimal (r : Registers) (v : UInt8) : Registers :=
  (r.alu .sbc v).decimalAdjust

section

variable (r : Registers) (v : UInt8)

theorem flag_adc (x : Flag) :
    (r.alu .adc v).flag x =
      let s := addBytes r.a v (r.flag .c)
      match x with
      | .z => s.result == 0
      | .n => false
      | .h => s.half
      | .c => s.carry :=
  flag_of_flagByte _ rfl x

theorem flag_sbc (x : Flag) :
    (r.alu .sbc v).flag x =
      let s := subBytes r.a v (r.flag .c)
      match x with
      | .z => s.result == 0
      | .n => true
      | .h => s.half
      | .c => s.carry :=
  flag_of_flagByte _ rfl x

theorem a_addDecimal : (r.addDecimal v).a = correctedSum (addBytes r.a v (r.flag .c)) := by
  simp only [addDecimal, decimalAdjust, flag_adc]
  rfl

theorem carry_addDecimal :
    (r.addDecimal v).flag .c = highExceeds (addBytes r.a v (r.flag .c)) := by
  rw [addDecimal, decimalAdjust, flag_of_flagByte _ rfl]
  simp only [flag_adc]
  rfl

theorem a_subDecimal :
    (r.subDecimal v).a = correctedDifference (subBytes r.a v (r.flag .c)) := by
  simp only [subDecimal, decimalAdjust, flag_sbc, Bool.not_true, Bool.false_and, Bool.or_false]
  rfl

theorem carry_subDecimal :
    (r.subDecimal v).flag .c = (subBytes r.a v (r.flag .c)).carry := by
  rw [subDecimal, decimalAdjust, flag_of_flagByte _ rfl]
  simp only [flag_sbc, Bool.not_true, Bool.false_and, Bool.or_false]

end

/-- `ADC` adds binary digits. -/
theorem combines_adc : binary.Combines 1 (Registers.alu · .adc) :=
  binary_combines_add (fun _ _ => rfl) fun r v => r.flag_adc v .c

/-- `SBC` subtracts binary digits. -/
theorem combines_sbc : binary.Combines (-1) (Registers.alu · .sbc) :=
  binary_combines_sub (fun _ _ => rfl) fun r v => r.flag_sbc v .c

/-- `ADC` and `DAA` add packed decimal digits. -/
theorem combines_addDecimal : decimal.Combines 1 addDecimal :=
  decimal_combines_add a_addDecimal carry_addDecimal

/-- `SBC` and `DAA` subtract packed decimal digits. -/
theorem combines_subDecimal : decimal.Combines (-1) subDecimal :=
  decimal_combines_sub (fun r v _ _ => a_subDecimal r v) fun r v _ _ => carry_subDecimal r v

end Registers

end EightBit.Sm83
