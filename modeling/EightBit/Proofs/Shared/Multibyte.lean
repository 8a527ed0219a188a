import EightBit.Proofs.Adder
import Mathlib.Data.Nat.Digits.Defs
import Mathlib.Tactic.LinearCombination

/-!
# Arithmetic on numbers of several bytes

A number that is too large for the accumulator is kept as a list of bytes, the lowest first. Two
such numbers are combined byte by byte, and the carry flag takes the carry of one byte to the next.
Whether the bytes are binary or hold two decimal digits each, what is true of one byte carries over
to the whole number: a sum and its carry out are the sum of the operands, a difference falls short
of that of the operands by what was borrowed.

## Main definitions

* `Accumulator`, `chain`: registers with an accumulator and a carry, and a chain of one operation.
* `byHalves`: an operation on the lower and one on the upper bytes of two words.
* `DigitCode`, `DigitCode.IsNumber`, `DigitCode.value`: bytes that are the digits of a number.
* `DigitCode.Combines`: an operation that adds or subtracts digits.
* `DigitCode.MakesSum`, `DigitCode.MakesDifference`, `DigitCode.Calculates`: what chains should
  compute.
* `binary`, `signedValue`: binary numbers, and their two's complement reading.

## Main results

* `DigitCode.Combines.value_chain`: a chain conserves the value of its operands.
* `DigitCode.Combines.makesSum`, `DigitCode.Combines.makesDifference`: sums and differences.
* `DigitCode.chain_restores`: subtracting what was added.
* `signedValue_concat_neg_iff`, `DigitCode.Combines.fitsSigned_concat`: the highest byte decides
  sign and overflow.
-/

namespace EightBit

/-- Registers with an accumulator and a carry flag. -/
class Accumulator (R : Type) where
  /-- The accumulator. -/
  acc : R → UInt8
  /-- The registers after a byte has been loaded into the accumulator. -/
  load : R → UInt8 → R
  /-- The carry flag. -/
  carry : R → Bool
  acc_load : ∀ r v, acc (load r v) = v
  carry_load : ∀ r v, carry (load r v) = carry r

open Accumulator

section

variable {R : Type} [Accumulator R]

/-- Combines two numbers byte by byte, the lowest first: a byte of the first number is loaded, the
operation combines it with that of the second, and the carry flag is left for the next bytes. The
bytes of the result, and the registers at the end. -/
def chain (op : R → UInt8 → R) : R → List UInt8 → List UInt8 → List UInt8 × R
  | r, x :: xs, y :: ys =>
    let after := op (load r x) y
    let rest := chain op after xs ys
    (acc after :: rest.1, rest.2)
  | r, _, _ => ([], r)

variable (op : R → UInt8 → R) (r : R)

@[simp] theorem chain_nil (ys : List UInt8) : chain op r [] ys = ([], r) := by
  cases ys <;> rfl

@[simp] theorem chain_cons (x y : UInt8) (xs ys : List UInt8) :
    chain op r (x :: xs) (y :: ys) =
      (acc (op (load r x) y) :: (chain op (op (load r x) y) xs ys).1,
        (chain op (op (load r x) y) xs ys).2) := rfl

/-- The result has as many bytes as the operands. -/
theorem length_chain {xs ys : List UInt8} (h : xs.length = ys.length) :
    (chain op r xs ys).1.length = xs.length := by
  induction xs generalizing ys r with
  | nil => rw [chain_nil]
  | cons x xs ih =>
    obtain ⟨y, ys, rfl⟩ := List.exists_cons_of_length_eq_add_one h.symm
    rw [chain_cons, List.length_cons, List.length_cons, ih _ (Nat.succ.inj h)]

/-- Two numbers of one length have highest bytes, unless they have none at all. -/
theorem exists_concat {xs ys : List UInt8} (h : xs.length = ys.length) (hne : xs ≠ []) :
    ∃ xs' x ys' y, xs = xs' ++ [x] ∧ ys = ys' ++ [y] ∧ xs'.length = ys'.length := by
  have hne' : ys ≠ [] := by
    rintro rfl
    exact hne (List.length_eq_zero_iff.1 h)
  refine ⟨xs.dropLast, xs.getLast hne, ys.dropLast, ys.getLast hne',
    (List.dropLast_concat_getLast hne).symm, (List.dropLast_concat_getLast hne').symm, ?_⟩
  rw [List.length_dropLast, List.length_dropLast, h]

/-- The highest bytes are combined last. -/
theorem chain_concat {xs ys : List UInt8} (h : xs.length = ys.length) (x y : UInt8) :
    chain op r (xs ++ [x]) (ys ++ [y]) =
      ((chain op r xs ys).1 ++ [acc (op (load (chain op r xs ys).2 x) y)],
        op (load (chain op r xs ys).2 x) y) := by
  induction xs generalizing ys r with
  | nil =>
    obtain rfl := List.length_eq_zero_iff.1 h.symm
    rfl
  | cons x' xs ih =>
    obtain ⟨y', ys, rfl⟩ := List.exists_cons_of_length_eq_add_one h.symm
    rw [List.cons_append, List.cons_append, chain_cons, ih _ (Nat.succ.inj h), chain_cons]
    rfl

/-- Combines two words by their bytes: the lower byte of the first word is loaded and combined with
that of the second by `low`, then the upper bytes by `high`. The word of the two results, and the
registers at the end. -/
def byHalves (low high : R → UInt8 → R) (r : R) (x y : UInt16) : UInt16 × R :=
  let afterLow := low (load r (loByte x)) (loByte y)
  let afterHigh := high (load afterLow (hiByte x)) (hiByte y)
  (word (acc afterHigh) (acc afterLow), afterHigh)

end

/-! ### Digits -/

/-- A way to write a digit as a byte. -/
structure DigitCode where
  /-- How many digits there are. -/
  radix : Nat
  /-- The bytes that stand for a digit. -/
  Valid : UInt8 → Prop
  /-- The digit that a byte stands for. -/
  digit : UInt8 → Nat
  one_lt_radix : 1 < radix
  digit_lt : ∀ b, Valid b → digit b < radix
  digit_injective : ∀ a b, Valid a → Valid b → digit a = digit b → a = b

namespace DigitCode

variable (code : DigitCode)

/-- Every byte stands for a digit. -/
def IsNumber (bs : List UInt8) : Prop :=
  ∀ b ∈ bs, code.Valid b

/-- The number whose digits the bytes stand for, the lowest first. -/
def value (bs : List UInt8) : Nat :=
  Nat.ofDigits code.radix (bs.map code.digit)

@[simp] theorem value_nil : code.value [] = 0 := rfl

@[simp] theorem value_cons (b : UInt8) (bs : List UInt8) :
    code.value (b :: bs) = code.digit b + code.radix * code.value bs := rfl

theorem value_append (as bs : List UInt8) :
    code.value (as ++ bs) = code.value as + code.radix ^ as.length * code.value bs := by
  rw [value, List.map_append, Nat.ofDigits_append, List.length_map]
  rfl

variable {code}

theorem value_lt {bs : List UInt8} (h : code.IsNumber bs) :
    code.value bs < code.radix ^ bs.length := by
  rw [← List.length_map (f := code.digit)]
  refine Nat.ofDigits_lt_base_pow_length code.one_lt_radix fun d hd => ?_
  obtain ⟨b, hb, rfl⟩ := List.mem_map.1 hd
  exact code.digit_lt b (h b hb)

theorem isNumber_cons {b : UInt8} {bs : List UInt8} :
    code.IsNumber (b :: bs) ↔ code.Valid b ∧ code.IsNumber bs :=
  List.forall_mem_cons

/-- A number has one form of each length. -/
theorem value_injective {as bs : List UInt8} (ha : code.IsNumber as) (hb : code.IsNumber bs)
    (hlen : as.length = bs.length) (h : code.value as = code.value bs) : as = bs := by
  have hdigits : as.map code.digit = bs.map code.digit := by
    refine Nat.ofDigits_inj_of_len_eq code.one_lt_radix (by simpa using hlen) ?_ ?_ h
    · exact List.forall_mem_map.2 fun a hm => code.digit_lt a (ha a hm)
    · exact List.forall_mem_map.2 fun b hm => code.digit_lt b (hb b hm)
  refine List.ext_getElem hlen fun i hi hi' => ?_
  have hdigit := List.getElem_of_eq hdigits (i := i) (by simpa using hi)
  rw [List.getElem_map, List.getElem_map] at hdigit
  exact code.digit_injective _ _ (ha _ (List.getElem_mem hi)) (hb _ (List.getElem_mem hi')) hdigit

end DigitCode

/-! ### Chains of digits -/

namespace DigitCode

variable {R : Type} [Accumulator R] (code : DigitCode)

/-- An operation that adds a digit and the carry to the accumulator, if the sign is `1`, or
subtracts a digit and the borrow, if the sign is `-1`. -/
structure Combines (sign : Int) (op : R → UInt8 → R) : Prop where
  valid : ∀ r y, code.Valid (acc r) → code.Valid y → code.Valid (acc (op r y))
  digit : ∀ r y, code.Valid (acc r) → code.Valid y →
    (code.digit (acc (op r y)) : Int) + sign * (code.radix * (carry (op r y)).toNat) =
      code.digit (acc r) + sign * (code.digit y + (carry r).toNat)

variable {code} {sign : Int} {op : R → UInt8 → R} {xs ys : List UInt8}

theorem Combines.isNumber_chain (h : code.Combines sign op) (hlen : xs.length = ys.length)
    (hx : code.IsNumber xs) (hy : code.IsNumber ys) (r : R) :
    code.IsNumber (chain op r xs ys).1 := by
  induction xs generalizing ys r with
  | nil =>
    rw [chain_nil]
    exact hx
  | cons x xs ih =>
    obtain ⟨y, ys, rfl⟩ := List.exists_cons_of_length_eq_add_one hlen.symm
    obtain ⟨hvx, hxs⟩ := isNumber_cons.1 hx
    obtain ⟨hvy, hys⟩ := isNumber_cons.1 hy
    refine isNumber_cons.2 ⟨h.valid _ y ?_ hvy, ih (Nat.succ.inj hlen) hxs hys _⟩
    rwa [acc_load]

/-- A chain conserves value: what the result lacks is in the carry. -/
theorem Combines.value_chain (h : code.Combines sign op) (hlen : xs.length = ys.length)
    (hx : code.IsNumber xs) (hy : code.IsNumber ys) (r : R) :
    (code.value (chain op r xs ys).1 : Int) +
        sign * (code.radix ^ xs.length * (carry (chain op r xs ys).2).toNat) =
      code.value xs + sign * (code.value ys + (carry r).toNat) := by
  induction xs generalizing ys r with
  | nil =>
    obtain rfl := List.length_eq_zero_iff.1 hlen.symm
    simp
  | cons x xs ih =>
    obtain ⟨y, ys, rfl⟩ := List.exists_cons_of_length_eq_add_one hlen.symm
    obtain ⟨hvx, hxs⟩ := isNumber_cons.1 hx
    obtain ⟨hvy, hys⟩ := isNumber_cons.1 hy
    have hstep := h.digit (load r x) y ((acc_load r x).symm ▸ hvx) hvy
    have hrest := ih (Nat.succ.inj hlen) hxs hys (op (load r x) y)
    rw [acc_load, carry_load] at hstep
    rw [chain_cons, value_cons, value_cons, value_cons, List.length_cons]
    push_cast
    linear_combination hstep + code.radix * hrest

/-! ### Sums and differences -/

variable (code) in
/-- A chain of the operation makes the sum of two numbers and of the carry that it starts with, up
to their length, and the carry out. -/
structure MakesSum (op : R → UInt8 → R) (xs ys : List UInt8) (r : R) : Prop where
  length : (chain op r xs ys).1.length = xs.length
  isNumber : code.IsNumber (chain op r xs ys).1
  value : code.value (chain op r xs ys).1 =
    (code.value xs + code.value ys + (carry r).toNat) % code.radix ^ xs.length
  carry : carry (chain op r xs ys).2 =
    decide (code.radix ^ xs.length ≤ code.value xs + code.value ys + (carry r).toNat)

variable (code) in
/-- A chain of the operation makes the difference of two numbers and of the borrow that it starts
with, up to their length, and the borrow out. -/
structure MakesDifference (op : R → UInt8 → R) (xs ys : List UInt8) (r : R) : Prop where
  length : (chain op r xs ys).1.length = xs.length
  isNumber : code.IsNumber (chain op r xs ys).1
  value : (code.value (chain op r xs ys).1 : Int) =
    (code.value xs - code.value ys - (carry r).toNat) % (code.radix ^ xs.length : Nat)
  borrow : carry (chain op r xs ys).2 =
    decide (code.value xs < code.value ys + (carry r).toNat)

/-- A chain of additions makes the sum. -/
theorem Combines.makesSum (h : code.Combines 1 op) (hlen : xs.length = ys.length)
    (hx : code.IsNumber xs) (hy : code.IsNumber ys) (r : R) : code.MakesSum op xs ys r := by
  have hlength := length_chain op r hlen
  have hnumber := h.isNumber_chain hlen hx hy r
  have hlt := hlength ▸ value_lt hnumber
  have hvalue : code.value xs + code.value ys + (carry r).toNat =
      code.value (chain op r xs ys).1 +
        code.radix ^ xs.length * (carry (chain op r xs ys).2).toNat := by
    have hint := h.value_chain hlen hx hy r
    push_cast [← Int.natCast_inj]
    linarith
  refine ⟨hlength, hnumber, ?_, ?_⟩
  · rw [hvalue, Nat.add_mul_mod_self_left, Nat.mod_eq_of_lt hlt]
  · rw [hvalue]
    cases carry (chain op r xs ys).2 with
    | false => simpa using hlt
    | true => simp

/-- A chain of subtractions makes the difference. -/
theorem Combines.makesDifference (h : code.Combines (-1) op) (hlen : xs.length = ys.length)
    (hx : code.IsNumber xs) (hy : code.IsNumber ys) (r : R) : code.MakesDifference op xs ys r := by
  have hlength := length_chain op r hlen
  have hnumber := h.isNumber_chain hlen hx hy r
  have hlt := hlength ▸ value_lt hnumber
  have hvalue : code.value xs + code.radix ^ xs.length * (carry (chain op r xs ys).2).toNat =
      code.value (chain op r xs ys).1 + (code.value ys + (carry r).toNat) := by
    have hint := h.value_chain hlen hx hy r
    push_cast [← Int.natCast_inj]
    linarith
  refine ⟨hlength, hnumber, ?_, ?_⟩
  · have hdifference : (code.value xs : Int) - code.value ys - (carry r).toNat =
        code.value (chain op r xs ys).1 -
          (code.radix ^ xs.length : Nat) * (carry (chain op r xs ys).2).toNat := by
      push_cast [← Int.natCast_inj] at hvalue ⊢
      linarith
    rw [hdifference, Int.sub_mul_emod_self_left, Int.emod_eq_of_lt (Int.natCast_nonneg _)
      (Int.ofNat_lt.2 hlt)]
  · cases hborrow : carry (chain op r xs ys).2 with
    | false =>
      rw [hborrow, Bool.toNat_false, Nat.mul_zero] at hvalue
      exact (decide_eq_false (by omega)).symm
    | true =>
      rw [hborrow, Bool.toNat_true, Nat.mul_one] at hvalue
      exact (decide_eq_true (by omega)).symm

/-- Subtracting the number that was added gives the other number back. -/
theorem chain_restores {adc sbc : R → UInt8 → R} (hadc : code.Combines 1 adc)
    (hsbc : code.Combines (-1) sbc) (hlen : xs.length = ys.length) (hx : code.IsNumber xs)
    (hy : code.IsNumber ys) {r q : R} (hr : carry r = false) (hq : carry q = false) :
    (chain sbc q (chain adc r xs ys).1 ys).1 = xs := by
  have hsum := hadc.makesSum hlen hx hy r
  have hdifference := hsbc.makesDifference (hsum.length.trans hlen) hsum.isNumber hy q
  refine value_injective hdifference.isNumber hx (hdifference.length.trans hsum.length) ?_
  have hlt : (code.value xs : Int) < (code.radix ^ xs.length : Nat) := Int.ofNat_lt.2 (value_lt hx)
  rw [← Int.natCast_inj, hdifference.value, hsum.value, hr, hq, hsum.length, Int.natCast_emod,
    Bool.toNat_false, Nat.add_zero, Int.natCast_zero, Int.sub_zero, Int.emod_sub_emod,
    Int.natCast_add, Int.add_sub_cancel, Int.emod_eq_of_lt (Int.natCast_nonneg _) hlt]

variable (code) in
/-- Two operations calculate with two numbers: chains of them make sums and differences, and a
difference undoes a sum. -/
structure Calculates (adc sbc : R → UInt8 → R) (xs ys : List UInt8) : Prop where
  sum : ∀ r, code.MakesSum adc xs ys r
  difference : ∀ r, code.MakesDifference sbc xs ys r
  restores : ∀ r q, carry r = false → carry q = false →
    (chain sbc q (chain adc r xs ys).1 ys).1 = xs

/-- Operations on digits calculate with numbers. -/
theorem Combines.calculates {adc sbc : R → UInt8 → R} (hadc : code.Combines 1 adc)
    (hsbc : code.Combines (-1) sbc) (hlen : xs.length = ys.length) (hx : code.IsNumber xs)
    (hy : code.IsNumber ys) : code.Calculates adc sbc xs ys where
  sum := hadc.makesSum hlen hx hy
  difference := hsbc.makesDifference hlen hx hy
  restores _ _ := chain_restores hadc hsbc hlen hx hy

end DigitCode

/-! ### Binary numbers -/

/-- Every byte is a digit. -/
def binary : DigitCode where
  radix := 256
  Valid _ := True
  digit := UInt8.toNat
  one_lt_radix := by decide
  digit_lt b _ := b.toNat_lt
  digit_injective _ _ _ _ h := UInt8.toNat_inj.1 h

theorem isNumber_binary (bs : List UInt8) : binary.IsNumber bs := fun _ _ => trivial

section

variable {R : Type} [Accumulator R] {op : R → UInt8 → R}

/-- The adder adds binary digits. -/
theorem binary_combines_add
    (hacc : ∀ r y, acc (op r y) = (addBytes (acc r) y (carry r)).result)
    (hcarry : ∀ r y, carry (op r y) = (addBytes (acc r) y (carry r)).carry) :
    binary.Combines 1 op where
  valid _ _ _ _ := trivial
  digit r y _ _ := by
    have hsum := toNat_addBytes (acc r) y (carry r)
    rw [hacc, hcarry]
    simp only [binary]
    omega

/-- The subtracter subtracts them. -/
theorem binary_combines_sub
    (hacc : ∀ r y, acc (op r y) = (subBytes (acc r) y (carry r)).result)
    (hcarry : ∀ r y, carry (op r y) = (subBytes (acc r) y (carry r)).carry) :
    binary.Combines (-1) op where
  valid _ _ _ _ := trivial
  digit r y _ _ := by
    have hdifference := toNat_subBytes (acc r) y (carry r)
    rw [hacc, hcarry]
    simp only [binary]
    omega

end

/-- The bytes of a number read as a two's complement number. -/
def signedValue (bs : List UInt8) : Int :=
  if 2 * binary.value bs < 256 ^ bs.length then binary.value bs
  else binary.value bs - 256 ^ bs.length

/-- The highest byte has the sign. -/
theorem signedValue_concat (bs : List UInt8) (b : UInt8) :
    signedValue (bs ++ [b]) = binary.value bs + 256 ^ bs.length * signedByte b := by
  have hlt : binary.value bs < 256 ^ bs.length := DigitCode.value_lt (isNumber_binary bs)
  have hvalue : binary.value (bs ++ [b]) = binary.value bs + 256 ^ bs.length * b.toNat := by
    rw [DigitCode.value_append]
    simp [binary]
  rw [signedValue, signedByte, hvalue, List.length_append, List.length_singleton, Nat.pow_succ]
  by_cases hb : isNegative b = true
  · have hhigh := Nat.mul_le_mul_left (256 ^ bs.length) ((isNegative_iff b).1 hb)
    rw [if_pos hb, if_neg (by omega)]
    push_cast
    ring
  · have hlow : b.toNat + 1 ≤ 128 := by
      have := mt (isNegative_iff b).2 hb
      omega
    have hhigh := Nat.mul_le_mul_left (256 ^ bs.length) hlow
    rw [Nat.mul_succ] at hhigh
    rw [if_neg hb, if_pos (by omega)]
    push_cast
    ring

/-- The lower bytes do not decide whether a number fits. -/
theorem fitsSigned_scaled (n : Nat) {low : Int} (hlow : 0 ≤ low) (hlt : low < 256 ^ n) (t : Int) :
    fitsSigned (n + 1) (low + 256 ^ n * t) = fitsSigned 1 t := by
  have hp : (0 : Int) < 256 ^ n := by positivity
  have hdiv : (low + 256 ^ n * t) / 256 ^ n = t := by
    rw [Int.add_mul_ediv_left _ _ hp.ne', Int.ediv_eq_zero_of_lt hlow hlt, Int.zero_add]
  have hbelow := Int.le_ediv_iff_mul_le (a := -128) (b := low + 256 ^ n * t) hp
  have habove := Int.ediv_lt_iff_lt_mul (a := low + 256 ^ n * t) (b := 128) hp
  rw [hdiv] at hbelow habove
  rw [fitsSigned, fitsSigned, pow_succ, pow_one]
  congr 1 <;> rw [decide_eq_decide] <;> omega

/-- The sign is that of the highest byte. -/
theorem signedValue_concat_neg_iff (bs : List UInt8) (b : UInt8) :
    signedValue (bs ++ [b]) < 0 ↔ isNegative b = true := by
  have hlt : (binary.value bs : Int) < 256 ^ bs.length := by
    exact_mod_cast DigitCode.value_lt (isNumber_binary bs)
  have hp : (0 : Int) < 256 ^ bs.length := by positivity
  rw [signedValue_concat, ← signedByte_neg_iff]
  constructor
  · intro h
    by_contra hn
    have := mul_nonneg hp.le (not_lt.1 hn)
    omega
  · intro h
    have := mul_le_mul_of_nonneg_left (Int.le_sub_one_of_lt h) hp.le
    omega

/-- Two numbers overflow if their highest bytes do, with the carry that the lower bytes leave. -/
theorem DigitCode.Combines.fitsSigned_concat {R : Type} [Accumulator R] {op : R → UInt8 → R}
    {sign : Int} (h : binary.Combines sign op) {xs ys : List UInt8} (hlen : xs.length = ys.length)
    (x y : UInt8) (r : R) :
    fitsSigned (xs.length + 1)
        (signedValue (xs ++ [x]) + sign * (signedValue (ys ++ [y]) + (carry r).toNat)) =
      fitsSigned 1
        (signedByte x + sign * (signedByte y + (carry (chain op r xs ys).2).toNat)) := by
  have hlt : binary.value (chain op r xs ys).1 < 256 ^ (chain op r xs ys).1.length :=
    DigitCode.value_lt (isNumber_binary _)
  rw [length_chain op r hlen] at hlt
  rw [← fitsSigned_scaled xs.length (Int.natCast_nonneg _) (by exact_mod_cast hlt)]
  have hvalue := h.value_chain hlen (isNumber_binary xs) (isNumber_binary ys) r
  congr 1
  rw [signedValue_concat, signedValue_concat, ← hlen]
  simp only [binary] at hvalue ⊢
  push_cast at hvalue ⊢
  linear_combination -hvalue

end EightBit
