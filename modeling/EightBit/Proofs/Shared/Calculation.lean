import EightBit.Proofs.Sm83.WordArithmetic
import EightBit.Proofs.Z80.WordArithmetic
import EightBit.Z80.Cpu

/-!
# Calculating with the two processors

Programs of both processors calculate with numbers of any length by the same chains of
instructions: an addition or a subtraction with the carry for each byte of a binary number, followed
by the decimal correction for each byte of a packed decimal number. The instructions with words are
chains of two.

## Main results

* `calculates_decimal`: packed decimal numbers.
* `calculates_binary`: binary numbers, with the sign and the overflow that the Z80 reports.
* `calculates_words`: the instructions with words, as instructions with bytes and as numbers say it.
-/

namespace EightBit

variable {xs ys : List UInt8}

/-- Both processors calculate with packed decimal numbers of any length. -/
theorem calculates_decimal (hlen : xs.length = ys.length) (hx : ∀ x ∈ xs, IsDecimal x)
    (hy : ∀ y ∈ ys, IsDecimal y) :
    decimal.Calculates Sm83.Registers.addDecimal Sm83.Registers.subDecimal xs ys ∧
      decimal.Calculates Z80.Registers.addDecimal Z80.Registers.subDecimal xs ys := by
  constructor
  · exact Sm83.Registers.combines_addDecimal.calculates
      Sm83.Registers.combines_subDecimal hlen hx hy
  · exact Z80.Registers.combines_addDecimal.calculates
      Z80.Registers.combines_subDecimal hlen hx hy

theorem calculates_decimal_carried :
    (∀ x ∈ [0x99, 0x19], IsDecimal x) ∧ (∀ y ∈ [0x01, 0x80], IsDecimal y) ∧
      (decimal.Calculates Sm83.Registers.addDecimal Sm83.Registers.subDecimal [0x99, 0x19]
          [0x01, 0x80] ∧
        decimal.Calculates Z80.Registers.addDecimal Z80.Registers.subDecimal [0x99, 0x19]
          [0x01, 0x80]) ∧
      decimal.value
          (chain Z80.Registers.addDecimal Z80.Cpu.resetRegisters [0x99, 0x19] [0x01, 0x80]).1 =
        1 := by
  have hx : ∀ x ∈ [0x99, 0x19], IsDecimal x :=
    List.forall_mem_cons.2 ⟨by decide, List.forall_mem_singleton.2 (by decide)⟩
  have hy : ∀ y ∈ [0x01, 0x80], IsDecimal y :=
    List.forall_mem_cons.2 ⟨by decide, List.forall_mem_singleton.2 (by decide)⟩
  have hboth := @calculates_decimal [0x99, 0x19] [0x01, 0x80] rfl hx hy
  exact ⟨hx, hy, hboth, (hboth.2.sum Z80.Cpu.resetRegisters).value.trans rfl⟩

/-- Both processors calculate with binary numbers of any length, and the Z80 shows the sign of the
result and whether the signed result fits. -/
theorem calculates_binary (hlen : xs.length = ys.length) (hne : xs ≠ []) :
    binary.Calculates (Sm83.Registers.alu · .adc) (Sm83.Registers.alu · .sbc) xs ys ∧
      binary.Calculates (Z80.Registers.alu · .adc) (Z80.Registers.alu · .sbc) xs ys ∧
      ∀ r : Z80.Registers,
        Z80.Registers.ShowsSign (chain (Z80.Registers.alu · .adc) r xs ys)
          (signedValue xs + signedValue ys + (r.flag .c).toNat) ∧
        Z80.Registers.ShowsSign (chain (Z80.Registers.alu · .sbc) r xs ys)
          (signedValue xs - signedValue ys - (r.flag .c).toNat) := by
  have hx := isNumber_binary xs
  have hy := isNumber_binary ys
  refine ⟨?_, ?_, fun r => ⟨?_, ?_⟩⟩
  · exact Sm83.Registers.combines_adc.calculates Sm83.Registers.combines_sbc hlen hx hy
  · exact Z80.Registers.combines_adc.calculates Z80.Registers.combines_sbc hlen hx hy
  · exact Z80.Registers.showsSign_chain_adc hlen hne r
  · exact Z80.Registers.showsSign_chain_sbc hlen hne r

theorem calculates_binary_carried :
    [0xFF, 0x7F] ≠ ([] : List UInt8) ∧
      binary.value
        (chain (Z80.Registers.alu · .adc) Z80.Cpu.resetRegisters [0xFF, 0x7F] [0x00, 0x00]).1 =
          0x8000 ∧
      (chain (Z80.Registers.alu · .adc) Z80.Cpu.resetRegisters [0xFF, 0x7F] [0x00, 0x00]).2.flag
        .pv = true := by
  have hne : [0xFF, 0x7F] ≠ ([] : List UInt8) := by decide
  obtain ⟨-, hvalue, hsign⟩ :=
    @calculates_binary [0xFF, 0x7F] [0x00, 0x00] rfl hne
  exact ⟨hne, (hvalue.sum Z80.Cpu.resetRegisters).value.trans rfl,
    (hsign Z80.Cpu.resetRegisters).1.overflow.trans rfl⟩

/-- The instructions of both processors with words leave what those with the bytes of the words
would, and what numbers say, whatever the operands and the flags are. -/
theorem calculates_words {β γ : Type} [Sm83.Bus β] [Z80.Bus γ] (s : Sm83.Board β) (t : Z80.Board γ)
    (p : Pair) : s.CalculatesWords p ∧ t.CalculatesWords p :=
  ⟨Sm83.Board.calculatesWords s p, Z80.Board.calculatesWords t p⟩

end EightBit
