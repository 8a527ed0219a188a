import EightBit.Proofs.Adder

/-!
# The adder of words, byte by byte

A sum of words is a sum of their lower bytes, followed by a sum of their upper bytes that takes the
carry of the lower ones. All three conditions that the adder of words reports are those of the upper
bytes: a carry out of bit 11 is one between the digits of the upper byte, and the sign is its bit 7.
Differences are made in the same way, with borrows for carries.

## Main definitions

* `CarrySum.concat`: the outcome on words, from those on upper and lower bytes.
* `addLow`, `addHigh`, `subLow`, `subHigh`: the two halves of a sum and of a difference.
* `signedWord`: a word read as a two's complement number.

## Main results

* `addWords_eq_concat`, `subWords_eq_concat`: the adder of words is two adders of bytes.
* `overflow_addWords_eq_not_fitsSigned`, `overflow_subWords_eq_not_fitsSigned`: the overflow.
* `isNegative_xor_overflow_subWords`: sign and overflow of a difference compare signed words.
* `toNat_add_displacement`: an address moved by a signed byte.
-/

namespace EightBit

/-! ### Words and their bits -/

theorem toBitVec_word (hi lo : UInt8) : (word hi lo).toBitVec = hi.toBitVec ++ lo.toBitVec := by
  apply BitVec.eq_of_toNat_eq
  rw [BitVec.toNat_append]
  change (word hi lo).toNat = hi.toNat <<< 8 ||| lo.toNat
  rw [toNat_word, ← Nat.shiftLeft_add_eq_or_of_lt (lo.toNat_lt : lo.toNat < 2 ^ 8),
    Nat.shiftLeft_eq]

theorem word_xor (a b c d : UInt8) : word a b ^^^ word c d = word (a ^^^ c) (b ^^^ d) := by
  apply UInt16.toBitVec_inj.1
  rw [UInt16.toBitVec_xor, toBitVec_word, toBitVec_word, toBitVec_word]
  exact BitVec.xor_append

theorem word_and (a b c d : UInt8) : word a b &&& word c d = word (a &&& c) (b &&& d) := by
  apply UInt16.toBitVec_inj.1
  rw [UInt16.toBitVec_and, toBitVec_word, toBitVec_word, toBitVec_word]
  exact BitVec.and_append

theorem hiByte_xor (x y : UInt16) : hiByte (x ^^^ y) = hiByte x ^^^ hiByte y := by
  conv_lhs => rw [← word_hiByte_loByte x, ← word_hiByte_loByte y, word_xor, hiByte_word]

theorem hiByte_and (x y : UInt16) : hiByte (x &&& y) = hiByte x &&& hiByte y := by
  conv_lhs => rw [← word_hiByte_loByte x, ← word_hiByte_loByte y, word_and, hiByte_word]

/-- A mask without lower bits tests the upper byte. -/
theorem and_word_zero_bne (w : UInt16) (m : UInt8) :
    (w &&& word m 0 != 0) = (hiByte w &&& m != 0) := by
  have hmasked : w &&& word m 0 = word (hiByte w &&& m) 0 := by
    conv_lhs => rw [← word_hiByte_loByte w, word_and, UInt8.and_zero]
  have hzero : w &&& word m 0 = 0 ↔ hiByte w &&& m = 0 := by
    rw [hmasked]
    constructor
    · intro h
      rw [← hiByte_word (hiByte w &&& m) 0, h]
      rfl
    · intro h
      rw [h]
      rfl
  rw [Bool.eq_iff_iff, bne_iff_ne, bne_iff_ne]
  exact not_congr hzero

/-- The sign of a word is that of its upper byte. -/
theorem and_signBit_bne (w : UInt16) : (w &&& 0x8000 != 0) = isNegative (hiByte w) :=
  and_word_zero_bne w 0x80

theorem toNat_eq_halves (w : UInt16) : w.toNat = (hiByte w).toNat * 256 + (loByte w).toNat := by
  rw [← toNat_word, word_hiByte_loByte]

theorem toNat_and_lowTwelve (w : UInt16) : (w &&& 0x0FFF).toNat = w.toNat % 4096 := by
  rw [UInt16.toNat_and]
  exact Nat.and_two_pow_sub_one_eq_mod _ 12

/-- A number determines the word and the carry that it is made of. -/
theorem eq_of_toNat_add_carry {v w : UInt16} {k l : Bool}
    (h : v.toNat + 65536 * k.toNat = w.toNat + 65536 * l.toNat) : v = w ∧ k = l := by
  have hv := v.toNat_lt
  have hw := w.toNat_lt
  have hkl : k = l := by
    cases k <;> cases l <;> simp only [Bool.toNat_true, Bool.toNat_false] at h <;>
      first | rfl | omega
  subst hkl
  exact ⟨UInt16.toNat_inj.1 (Nat.add_right_cancel h), rfl⟩

/-! ### Two adders of bytes -/

/-- The outcome on words whose upper bytes have the outcome `high` and whose lower bytes have the
outcome `low`. -/
def CarrySum.concat (high low : CarrySum UInt8) : CarrySum UInt16 where
  result := word high.result low.result
  half := high.half
  carry := high.carry
  overflow := high.overflow

section

variable (x y : UInt16) (c : Bool)

/-- The sum of the lower bytes. -/
def addLow : CarrySum UInt8 := addBytes (loByte x) (loByte y) c

/-- The sum of the upper bytes, with the carry of the lower ones. -/
def addHigh : CarrySum UInt8 := addBytes (hiByte x) (hiByte y) (addLow x y c).carry

/-- The difference of the lower bytes. -/
def subLow : CarrySum UInt8 := subBytes (loByte x) (loByte y) c

/-- The difference of the upper bytes, with the borrow of the lower ones. -/
def subHigh : CarrySum UInt8 := subBytes (hiByte x) (hiByte y) (subLow x y c).carry

/-! ### Sums -/

theorem toNat_addLow :
    (addLow x y c).result.toNat + 256 * (addLow x y c).carry.toNat =
      (loByte x).toNat + (loByte y).toNat + c.toNat :=
  toNat_addBytes _ _ _

theorem result_addWords :
    (addWords x y c).result = word (addHigh x y c).result (addLow x y c).result ∧
      (addWords x y c).carry = (addHigh x y c).carry := by
  have hlow := toNat_addLow x y c
  have hhigh : (addHigh x y c).result.toNat + 256 * (addHigh x y c).carry.toNat = _ :=
    toNat_addBytes _ _ _
  refine eq_of_toNat_add_carry ?_
  rw [toNat_addWords, toNat_word, toNat_eq_halves x, toNat_eq_halves y]
  omega

theorem half_addWords : (addWords x y c).half = (addHigh x y c).half := by
  have hc := c.toNat_le
  have hsum : (lowSum x y c).toNat = x.toNat % 4096 + y.toNat % 4096 + c.toNat := by
    rw [lowSum, UInt16.toNat_add, UInt16.toNat_add, toNat_and_lowTwelve, toNat_and_lowTwelve,
      UInt8.toNat_toUInt16, toNat_carryByte]
    omega
  have hhalf : (addWords x y c).half = decide (4095 < (lowSum x y c).toNat) := rfl
  have hlow := toNat_addLow x y c
  have hr := (addLow x y c).result.toNat_lt
  have hx := (loByte x).toNat_lt
  have hy := (loByte y).toNat_lt
  rw [hhalf, hsum, addHigh, half_addBytes, decide_eq_decide, toNat_eq_halves x, toNat_eq_halves y]
  omega

theorem overflow_addWords : (addWords x y c).overflow = (addHigh x y c).overflow := by
  have hoverflow : (addWords x y c).overflow =
      ((x ^^^ (addWords x y c).result) &&& (y ^^^ (addWords x y c).result) &&& 0x8000 != 0) := rfl
  rw [hoverflow, and_signBit_bne, hiByte_and, hiByte_xor, hiByte_xor, (result_addWords x y c).1,
    hiByte_word]
  rfl

/-- The result of a sum of words is the sum as far as it fits. -/
theorem toNat_result_addWords :
    (addWords x y c).result.toNat = (x.toNat + y.toNat + c.toNat) % 65536 := by
  have hwords := toNat_addWords x y c
  have hr := (addWords x y c).result.toNat_lt
  omega

/-- A sum of words is a sum of lower and a sum of upper bytes. -/
theorem addWords_eq_concat : addWords x y c = (addHigh x y c).concat (addLow x y c) := by
  obtain ⟨hresult, hcarry⟩ := result_addWords x y c
  rw [CarrySum.concat, ← hresult, ← hcarry, ← half_addWords, ← overflow_addWords]

/-! ### Differences -/

theorem toNat_subLow :
    (subLow x y c).result.toNat + (loByte y).toNat + c.toNat =
      (loByte x).toNat + 256 * (subLow x y c).carry.toNat :=
  toNat_subBytes _ _ _

/-- What the lower bytes borrow is what the lower digits of the words lack. -/
theorem carry_subHigh : (subHigh x y c).carry = (subWords x y c).carry := by
  have hwords : (subWords x y c).carry = decide (x.toNat < y.toNat + c.toNat) := rfl
  have hlow := toNat_subLow x y c
  have hr := (subLow x y c).result.toNat_lt
  have hx := (loByte x).toNat_lt
  rw [hwords, subHigh, carry_subBytes, decide_eq_decide, toNat_eq_halves x, toNat_eq_halves y]
  omega

theorem result_subWords :
    (subWords x y c).result = word (subHigh x y c).result (subLow x y c).result := by
  have hlow := toNat_subLow x y c
  have hhigh : (subHigh x y c).result.toNat + _ + _ = _ + 256 * (subHigh x y c).carry.toNat :=
    toNat_subBytes _ _ _
  have hwords := toNat_subWords x y c
  rw [toNat_eq_halves x, toNat_eq_halves y, ← carry_subHigh] at hwords
  apply UInt16.toNat_inj.1
  rw [toNat_word]
  omega

theorem half_subWords : (subWords x y c).half = (subHigh x y c).half := by
  have hhalf : (subWords x y c).half =
      ((x ^^^ y ^^^ (subWords x y c).result) &&& 0x1000 != 0) := rfl
  rw [hhalf, result_subWords]
  refine (and_word_zero_bne _ 0x10).trans ?_
  rw [hiByte_xor, hiByte_xor, hiByte_word]
  rfl

theorem overflow_subWords : (subWords x y c).overflow = (subHigh x y c).overflow := by
  have hoverflow : (subWords x y c).overflow =
      ((x ^^^ y) &&& (x ^^^ (subWords x y c).result) &&& 0x8000 != 0) := rfl
  rw [hoverflow, and_signBit_bne, hiByte_and, hiByte_xor, hiByte_xor, result_subWords, hiByte_word]
  rfl

/-- The result of a difference of words is the difference as far as it fits. -/
theorem toNat_result_subWords :
    ((subWords x y c).result.toNat : Int) = (x.toNat - y.toNat - c.toNat) % 65536 := by
  have hwords := toNat_subWords x y c
  have hr := (subWords x y c).result.toNat_lt
  omega

/-- A difference of words is a difference of lower and a difference of upper bytes. -/
theorem subWords_eq_concat : subWords x y c = (subHigh x y c).concat (subLow x y c) := by
  rw [CarrySum.concat, ← result_subWords, carry_subHigh, ← half_subWords, ← overflow_subWords]

end

/-! ### Signed values -/

/-- A word read as a two's complement number. -/
def signedWord (w : UInt16) : Int :=
  if w.toNat < 0x8000 then w.toNat else w.toNat - 0x10000

/-- The upper byte has the sign. -/
theorem signedWord_eq (w : UInt16) :
    signedWord w = 256 * signedByte (hiByte w) + (loByte w).toNat := by
  have hlow := (loByte w).toNat_lt
  have hhigh := signedByte_cases (hiByte w)
  rw [signedWord, toNat_eq_halves]
  split <;> omega

/-- The lower bytes do not decide whether a sum fits. -/
theorem fitsSigned_two_iff {low : Int} (hlow : 0 ≤ low) (hlt : low < 256) (t : Int) :
    fitsSigned 2 (256 * t + low) = fitsSigned 1 t := by
  rw [Bool.eq_iff_iff, fitsSigned_one_iff, fitsSigned, Bool.and_eq_true, decide_eq_true_iff,
    decide_eq_true_iff]
  omega

/-- A difference of bytes is negative, as an exact number, if the sign of the result and the
overflow differ. -/
theorem isNegative_xor_overflow_subBytes (a b : UInt8) (c : Bool) :
    (isNegative (subBytes a b c).result ^^ (subBytes a b c).overflow) =
      decide (signedByte a - signedByte b - c.toNat < 0) := by
  have hresult := toNat_subBytes a b c
  have hr := (subBytes a b c).result.toNat_lt
  have hk := (subBytes a b c).carry.toNat_le
  have hc := c.toNat_le
  have ha := signedByte_cases a
  have hb := signedByte_cases b
  rw [overflow_subBytes, Bool.eq_iff_iff, bne_iff_ne, ne_eq, Bool.eq_iff_iff, isNegative_iff,
    Bool.not_eq_true', ← Bool.not_eq_true, fitsSigned_one_iff, decide_eq_true_iff]
  omega

section

variable (x y : UInt16) (c : Bool)

/-- A signed sum of words overflows if it is not the signed value of a word. -/
theorem overflow_addWords_eq_not_fitsSigned :
    (addWords x y c).overflow = !fitsSigned 2 (signedWord x + signedWord y + c.toNat) := by
  have hlow := toNat_addLow x y c
  have hr := (addLow x y c).result.toNat_lt
  have hsum : signedWord x + signedWord y + c.toNat =
      256 * (signedByte (hiByte x) + signedByte (hiByte y) + (addLow x y c).carry.toNat) +
        (addLow x y c).result.toNat := by
    rw [signedWord_eq, signedWord_eq]
    omega
  rw [overflow_addWords, addHigh, overflow_addBytes, hsum, fitsSigned_two_iff (by omega) (by omega)]

/-- What a difference of words lacks is what that of their upper bytes lacks. -/
theorem signedWord_sub_eq :
    signedWord x - signedWord y - c.toNat =
      256 * (signedByte (hiByte x) - signedByte (hiByte y) - (subLow x y c).carry.toNat) +
        (subLow x y c).result.toNat := by
  have hlow := toNat_subLow x y c
  rw [signedWord_eq, signedWord_eq]
  omega

/-- So does a signed difference. -/
theorem overflow_subWords_eq_not_fitsSigned :
    (subWords x y c).overflow = !fitsSigned 2 (signedWord x - signedWord y - c.toNat) := by
  have hr := (subLow x y c).result.toNat_lt
  rw [overflow_subWords, subHigh, overflow_subBytes, signedWord_sub_eq,
    fitsSigned_two_iff (by omega) (by omega)]

/-- The sign of a difference of words and its overflow compare the signed words. -/
theorem isNegative_xor_overflow_subWords :
    (isNegative (hiByte (subWords x y c).result) ^^ (subWords x y c).overflow) =
      decide (signedWord x < signedWord y + c.toNat) := by
  have hdifference := signedWord_sub_eq x y c
  have hr := (subLow x y c).result.toNat_lt
  rw [overflow_subWords, result_subWords, hiByte_word, subHigh, isNegative_xor_overflow_subBytes,
    decide_eq_decide]
  omega

end

/-- The sign of a displacement fills the upper byte. -/
theorem displacement_eq_word (d : UInt8) :
    displacement d = word (if d < 0x80 then 0 else 0xFF) d := by
  rw [displacement]
  split
  next => exact (UInt16.zero_or).symm
  next => exact UInt16.or_comm ..

/-- A displacement moves an address by a signed byte. -/
theorem toNat_add_displacement (w : UInt16) (d : UInt8) :
    ((w + displacement d).toNat : Int) = (w.toNat + signedByte d) % 65536 := by
  have hd := d.toNat_lt
  have hsigned := signedByte_cases d
  have hlow : d < 0x80 ↔ d.toNat < 128 := UInt8.lt_iff_toNat_lt
  rw [UInt16.toNat_add, displacement_eq_word, toNat_word]
  split
  next h =>
    have hlt := hlow.1 h
    rw [UInt8.toNat_zero]
    omega
  next h =>
    have hle := mt hlow.2 h
    have hmax : (0xFF : UInt8).toNat = 255 := rfl
    rw [hmax]
    omega

end EightBit
