/-!
# Bytes, words and their halves

A word is two bytes. This module builds a word from its halves, takes it apart again, and extends
the signed displacement byte of a relative jump or an indexed operand to a word.

## Main definitions

* `word`, `hiByte`, `loByte`: composition of a word and its two halves.
* `displacement`: a byte read as a two's complement offset.
* `isOdd`, `isNegative`, `evenParity`: the lowest and the highest bit of a byte, and whether its set
  bits are even in number.
* `carryByte`: a carry as a byte.

## Main results

* `word_hiByte_loByte`, `hiByte_word`, `loByte_word`: the halves determine the word and are
  determined by it.
-/

namespace EightBit

/-- The word whose upper byte is `hi` and whose lower byte is `lo`. -/
@[inline] def word (hi lo : UInt8) : UInt16 :=
  hi.toUInt16 <<< 8 ||| lo.toUInt16

/-- The upper byte of a word. -/
@[inline] def hiByte (w : UInt16) : UInt8 :=
  (w >>> 8).toUInt8

/-- The lower byte of a word. -/
@[inline] def loByte (w : UInt16) : UInt8 :=
  w.toUInt8

/-- A byte read as a signed offset in `[-128, 127]`, extended to a word: adding it to an address
wraps modulo `2 ^ 16` in either direction. -/
@[inline] def displacement (d : UInt8) : UInt16 :=
  if d < 0x80 then d.toUInt16 else d.toUInt16 ||| 0xFF00

/-- Whether the lowest bit is set. -/
@[inline] def isOdd (b : UInt8) : Bool :=
  b &&& 1 != 0

/-- Whether bit 7 is set, the sign of a two's complement byte. -/
@[inline] def isNegative (b : UInt8) : Bool :=
  b &&& 0x80 != 0

/-- Whether the number of set bits is even: folding the byte onto itself leaves the parity of all
its bits in the lowest one. -/
def evenParity (b : UInt8) : Bool :=
  let b := b ^^^ (b >>> 4)
  let b := b ^^^ (b >>> 2)
  let b := b ^^^ (b >>> 1)
  !isOdd b

/-- A carry as the byte that is added for it. -/
@[inline] def carryByte (c : Bool) : UInt8 :=
  if c then 1 else 0

/-! ### A word and its halves -/

theorem toNat_word (hi lo : UInt8) : (word hi lo).toNat = hi.toNat * 256 + lo.toNat := by
  have h1 := hi.toNat_lt
  have h2 := lo.toNat_lt
  simp only [word, UInt16.toNat_or, UInt16.toNat_shiftLeft, UInt8.toNat_toUInt16]
  rw [show (8 : UInt16).toNat % 16 = 8 from rfl, Nat.mod_eq_of_lt (by rw [Nat.shiftLeft_eq]; omega),
    ← Nat.shiftLeft_add_eq_or_of_lt (by omega : lo.toNat < 2 ^ 8), Nat.shiftLeft_eq]

theorem toNat_hiByte (w : UInt16) : (hiByte w).toNat = w.toNat / 256 := by
  have h := w.toNat_lt
  simp only [hiByte, UInt16.toNat_toUInt8, UInt16.toNat_shiftRight]
  rw [show (8 : UInt16).toNat % 16 = 8 from rfl, Nat.shiftRight_eq_div_pow]
  omega

theorem toNat_loByte (w : UInt16) : (loByte w).toNat = w.toNat % 256 := by
  simp [loByte]

@[simp] theorem hiByte_word (hi lo : UInt8) : hiByte (word hi lo) = hi := by
  have h1 := hi.toNat_lt
  have h2 := lo.toNat_lt
  apply UInt8.toNat_inj.1
  rw [toNat_hiByte, toNat_word]
  omega

@[simp] theorem loByte_word (hi lo : UInt8) : loByte (word hi lo) = lo := by
  have h2 := lo.toNat_lt
  apply UInt8.toNat_inj.1
  rw [toNat_loByte, toNat_word]
  omega

@[simp] theorem word_hiByte_loByte (w : UInt16) : word (hiByte w) (loByte w) = w := by
  apply UInt16.toNat_inj.1
  rw [toNat_word, toNat_hiByte, toNat_loByte]
  omega

end EightBit
