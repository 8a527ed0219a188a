import EightBit.Proofs.WordAdder
import EightBit.Proofs.Z80.Arithmetic
import EightBit.Z80.Execute

/-!
# Words on the Z80

The instructions that add words and subtract them do what two instructions on bytes would do: the
one on the lower bytes first, then the one on the upper bytes, with the carry of the lower. The two
that use the carry flag leave the flags of the upper bytes, apart from the zero flag, which is about
the whole word. The one that does not keeps sign, zero and parity.

## Main definitions

* `Registers.LeavesHalves`, `Registers.LeavesSum`: what instructions on bytes say about the
  registers that an instruction on words leaves.
* `Registers.SumWithCarry`, `Registers.DifferenceWithCarry`: what numbers say about them.
* `Board.CalculatesWords`: both, for the three instructions.

## Main results

* `Registers.leavesHalves_addWithCarry`, `Registers.leavesHalves_subWithCarry`,
  `Registers.leavesSum_addIndex`: the instructions and those on bytes.
* `Registers.sumWithCarry_addWithCarry`, `Registers.differenceWithCarry_subWithCarry`: the
  instructions and numbers.
* `Board.calculatesWords`: the instructions on every board.
-/

namespace EightBit.Z80

open Accumulator

namespace Registers

/-! ### The flags -/

/-- The flags that report a calculation with bytes. -/
theorem flag_of_sumFlags {r : Registers} {s : CarrySum UInt8} {subtracted : Bool}
    (hf : r.f = sumFlags s subtracted) (x : Flag) :
    r.flag x =
      match x with
      | .s => isNegative s.result
      | .z => s.result == 0
      | .h => s.half
      | .pv => s.overflow
      | .n => subtracted
      | .c => s.carry :=
  flag_of_flagByte r hf x

/-- The flags that report a calculation with words. -/
theorem flag_of_wordSumFlags {r : Registers} {s : CarrySum UInt16} {subtracted : Bool}
    (hf : r.f = wordSumFlags s subtracted) (x : Flag) :
    r.flag x =
      match x with
      | .s => isNegative (hiByte s.result)
      | .z => s.result == 0
      | .h => s.half
      | .pv => s.overflow
      | .n => subtracted
      | .c => s.carry := by
  rw [wordSumFlags, and_signBit_bne] at hf
  exact flag_of_flagByte r hf x

/-! ### Instructions on bytes -/

/-- The registers `q`, which an instruction on words has left of `r`, hold in `HL` and in the flags
what instructions on bytes have made. The zero flag is that of the word. -/
structure LeavesHalves (r q : Registers) (made : UInt16 × Registers) : Prop where
  result : q.hl = made.1
  flag : ∀ x, x ≠ .z → q.flag x = made.2.flag x
  zero : q.flag .z = (made.1 == 0)
  kept : q = { r with f := q.f, h := q.h, l := q.l }

/-- The registers `q`, which an addition to the register that stands for `HL` has left of `r`, hold
there and in carry and half carry what instructions on bytes have made. -/
structure LeavesSum (m : IndexMode) (r q : Registers) (made : UInt16 × Registers) : Prop where
  result : q.index m = made.1
  half : q.flag .h = made.2.flag .h
  carry : q.flag .c = made.2.flag .c
  subtracted : q.flag .n = false
  keptFlag : ∀ x, x = .s ∨ x = .z ∨ x = .pv → q.flag x = r.flag x
  kept : q = { r.setIndex m (q.index m) with f := q.f }

section

variable (r : Registers) (x y : UInt16)

/-- Two additions with the carry, the one of the lower bytes and the one of the upper. -/
theorem byHalves_adc :
    byHalves (alu · .adc) (alu · .adc) r x y =
      ((addWords x y (r.flag .c)).result,
        { r with
          a := (addHigh x y (r.flag .c)).result
          f := sumFlags (addHigh x y (r.flag .c)) false }) := by
  have hcarry :
      ((load r (loByte x)).alu .adc (loByte y)).flag .c = (addLow x y (r.flag .c)).carry :=
    flag_adc (load r (loByte x)) (loByte y) .c
  rw [(result_addWords x y (r.flag .c)).1, addHigh, ← hcarry]
  rfl

/-- Two subtractions with the borrow. -/
theorem byHalves_sbc :
    byHalves (alu · .sbc) (alu · .sbc) r x y =
      ((subWords x y (r.flag .c)).result,
        { r with
          a := (subHigh x y (r.flag .c)).result
          f := sumFlags (subHigh x y (r.flag .c)) true }) := by
  have hcarry :
      ((load r (loByte x)).alu .sbc (loByte y)).flag .c = (subLow x y (r.flag .c)).carry :=
    flag_sbc (load r (loByte x)) (loByte y) .c
  rw [result_subWords x y (r.flag .c), subHigh, ← hcarry]
  rfl

/-- An addition of the lower bytes, and one with the carry of the upper. -/
theorem byHalves_add :
    byHalves (alu · .add) (alu · .adc) r x y =
      ((addWords x y false).result,
        { r with
          a := (addHigh x y false).result
          f := sumFlags (addHigh x y false) false }) := by
  have hcarry : ((load r (loByte x)).alu .add (loByte y)).flag .c = (addLow x y false).carry :=
    flag_of_sumFlags (r := (load r (loByte x)).alu .add (loByte y)) rfl .c
  rw [(result_addWords x y false).1, addHigh, ← hcarry]
  rfl

end

variable (r : Registers) (v : UInt16)

/-- Registers that report a calculation with words report what those do that report it with the
upper bytes. -/
theorem leavesHalves_of_concat {high low : CarrySum UInt8} {q made : Registers} (subtracted : Bool)
    (hq : q = { r with f := wordSumFlags (high.concat low) subtracted }.setHl
      (high.concat low).result)
    (hmade : made.f = sumFlags high subtracted) :
    LeavesHalves r q ((high.concat low).result, made) := by
  have hf : q.f = wordSumFlags (high.concat low) subtracted := congrArg Registers.f hq
  have hresult : q.hl = (high.concat low).result := by
    rw [hq]
    exact word_hiByte_loByte _
  refine ⟨hresult, fun x hx => ?_, flag_of_wordSumFlags hf .z, by rw [hq]; rfl⟩
  rw [flag_of_wordSumFlags hf, flag_of_sumFlags hmade]
  cases x with
  | s => exact congrArg isNegative (hiByte_word _ _)
  | z => exact absurd rfl hx
  | h | pv | n | c => rfl

/-- An addition with the carry is two of bytes. -/
theorem leavesHalves_addWithCarry :
    LeavesHalves r (r.addWithCarry v) (byHalves (alu · .adc) (alu · .adc) r r.hl v) := by
  rw [byHalves_adc, addWords_eq_concat]
  refine r.leavesHalves_of_concat false ?_ rfl
  rw [← addWords_eq_concat]
  rfl

/-- A subtraction with the borrow is two of bytes. -/
theorem leavesHalves_subWithCarry :
    LeavesHalves r (r.subWithCarry v) (byHalves (alu · .sbc) (alu · .sbc) r r.hl v) := by
  rw [byHalves_sbc, subWords_eq_concat]
  refine r.leavesHalves_of_concat true ?_ rfl
  rw [← subWords_eq_concat]
  rfl

@[simp] theorem index_setIndex (m : IndexMode) (w : UInt16) : (r.setIndex m w).index m = w := by
  cases m with
  | hl => exact word_hiByte_loByte w
  | ix | iy => rfl

@[simp] theorem flag_setIndex (m : IndexMode) (w : UInt16) (x : Flag) :
    (r.setIndex m w).flag x = r.flag x := by
  cases m <;> rfl

/-- An addition without the carry keeps sign, zero and parity. -/
theorem flag_addIndex (m : IndexMode) (x : Flag) :
    (r.addIndex m v).flag x =
      match x with
      | .h => (addWords (r.index m) v false).half
      | .c => (addWords (r.index m) v false).carry
      | .n => false
      | x => r.flag x := by
  rw [addIndex, flag_setIndex]
  cases x <;> simp

theorem index_addIndex (m : IndexMode) :
    (r.addIndex m v).index m = (addWords (r.index m) v false).result :=
  index_setIndex _ m _

/-- An addition without the carry is two of bytes, of which the second takes the carry. -/
theorem leavesSum_addIndex (m : IndexMode) :
    LeavesSum m r (r.addIndex m v) (byHalves (alu · .add) (alu · .adc) r (r.index m) v) := by
  rw [byHalves_add]
  refine ⟨r.index_addIndex v m, ?_, ?_, r.flag_addIndex v m .n, ?_, ?_⟩
  · rw [flag_addIndex, flag_of_sumFlags rfl]
    exact half_addWords _ _ _
  · rw [flag_addIndex, flag_of_sumFlags rfl]
    exact (result_addWords _ _ _).2
  · rintro x (rfl | rfl | rfl) <;> exact r.flag_addIndex v m _
  · rw [index_addIndex, addIndex, setFlags_eq]
    cases m <;> rfl

/-! ### Numbers -/

/-- The registers `q` hold the sum of `HL`, a word and the carry, as their registers `r`
had them. -/
structure SumWithCarry (r q : Registers) (v : UInt16) : Prop where
  result : q.hl.toNat = (r.hl.toNat + v.toNat + (r.flag .c).toNat) % 65536
  carry : q.flag .c = decide (65536 ≤ r.hl.toNat + v.toNat + (r.flag .c).toNat)
  overflow : q.flag .pv = !fitsSigned 2 (signedWord r.hl + signedWord v + (r.flag .c).toNat)

/-- The registers `q` hold the difference of `HL`, a word and the borrow. Borrow, sign and overflow
compare the two, as unsigned and as signed words. -/
structure DifferenceWithCarry (r q : Registers) (v : UInt16) : Prop where
  result : (q.hl.toNat : Int) = (r.hl.toNat - v.toNat - (r.flag .c).toNat) % 65536
  overflow : q.flag .pv = !fitsSigned 2 (signedWord r.hl - signedWord v - (r.flag .c).toNat)
  less : q.flag .c = true ↔ r.hl.toNat < v.toNat + (r.flag .c).toNat
  signedLess : (q.flag .s ^^ q.flag .pv) = true ↔
    signedWord r.hl < signedWord v + (r.flag .c).toNat

theorem hl_addWithCarry : (r.addWithCarry v).hl = (addWords r.hl v (r.flag .c)).result :=
  word_hiByte_loByte _

theorem hl_subWithCarry : (r.subWithCarry v).hl = (subWords r.hl v (r.flag .c)).result :=
  word_hiByte_loByte _

theorem f_addWithCarry :
    (r.addWithCarry v).f = wordSumFlags (addWords r.hl v (r.flag .c)) false := rfl

theorem f_subWithCarry :
    (r.subWithCarry v).f = wordSumFlags (subWords r.hl v (r.flag .c)) true := rfl

theorem sumWithCarry_addWithCarry : SumWithCarry r (r.addWithCarry v) v where
  result := by
    rw [hl_addWithCarry]
    exact toNat_result_addWords _ _ _
  carry := by
    rw [flag_of_wordSumFlags (r.f_addWithCarry v)]
    rfl
  overflow := by
    rw [flag_of_wordSumFlags (r.f_addWithCarry v)]
    exact overflow_addWords_eq_not_fitsSigned _ _ _

theorem differenceWithCarry_subWithCarry : DifferenceWithCarry r (r.subWithCarry v) v where
  result := by
    rw [hl_subWithCarry]
    exact toNat_result_subWords _ _ _
  overflow := by
    rw [flag_of_wordSumFlags (r.f_subWithCarry v)]
    exact overflow_subWords_eq_not_fitsSigned _ _ _
  less := by
    rw [flag_of_wordSumFlags (r.f_subWithCarry v)]
    exact decide_eq_true_iff
  signedLess := by
    rw [flag_of_wordSumFlags (r.f_subWithCarry v), flag_of_wordSumFlags (r.f_subWithCarry v),
      ← decide_eq_true_iff (p := signedWord r.hl < _), ← isNegative_xor_overflow_subWords]

end Registers

/-! ### Instructions -/

/-- What the instructions with words leave on a board, as instructions with bytes and as numbers say
it. -/
structure Board.CalculatesWords {β : Type} [Bus β] (s : Board β) (p : Pair) : Prop where
  adc : Registers.LeavesHalves s.cpu.regs (s.execute (.adcHl p)).cpu.regs
    (byHalves (Registers.alu · .adc) (Registers.alu · .adc) s.cpu.regs s.cpu.regs.hl
      (s.cpu.regs.pair p))
  adc_sum : Registers.SumWithCarry s.cpu.regs (s.execute (.adcHl p)).cpu.regs (s.cpu.regs.pair p)
  sbc : Registers.LeavesHalves s.cpu.regs (s.execute (.sbcHl p)).cpu.regs
    (byHalves (Registers.alu · .sbc) (Registers.alu · .sbc) s.cpu.regs s.cpu.regs.hl
      (s.cpu.regs.pair p))
  sbc_difference :
    Registers.DifferenceWithCarry s.cpu.regs (s.execute (.sbcHl p)).cpu.regs (s.cpu.regs.pair p)
  add : Registers.LeavesSum s.cpu.mode s.cpu.regs (s.execute (.addHl p)).cpu.regs
    (byHalves (Registers.alu · .add) (Registers.alu · .adc) s.cpu.regs s.indexValue
      (s.pairValue p))
  add_sum : ((s.execute (.addHl p)).cpu.regs.index s.cpu.mode).toNat =
    (s.indexValue.toNat + (s.pairValue p).toNat) % 65536

/-- The instructions with words do what those with bytes do, and what numbers say. -/
theorem Board.calculatesWords {β : Type} [Bus β] (s : Board β) (p : Pair) :
    s.CalculatesWords p where
  adc := Registers.leavesHalves_addWithCarry _ _
  adc_sum := Registers.sumWithCarry_addWithCarry _ _
  sbc := Registers.leavesHalves_subWithCarry _ _
  sbc_difference := Registers.differenceWithCarry_subWithCarry _ _
  add := Registers.leavesSum_addIndex _ _ _
  add_sum := by
    have hindex : (s.execute (.addHl p)).cpu.regs.index s.cpu.mode =
        (addWords s.indexValue (s.pairValue p) false).result :=
      Registers.index_addIndex _ _ _
    rw [hindex, toNat_result_addWords, Bool.toNat_false, Nat.add_zero]

end EightBit.Z80
