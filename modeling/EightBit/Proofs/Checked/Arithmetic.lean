import EightBit.Adder
import EightBit.Memory
import EightBit.Operand
import EightBit.Proofs.Bits
import EightBit.Trace.Entry
import Mathlib.Algebra.Group.Int.Defs
import Mathlib.Algebra.Ring.Nat

/-!
# Arithmetic that must stay within its types

A sum of two bytes that is kept in a byte may be too large for it, a difference may be negative, and
an index may lie beyond the end. A checked computation is made with numbers and answers with a fault
where the type that it is meant for is left. When it answers as a computation that never fails does,
in every state of the program, the fault does not happen.

Two kinds of operations have no checked form. Those that are meant to wrap or to report a carry
never fail. And where the amount of a shift, an index or both operands are literals, whether they
fit does not depend on a state.

## Main definitions

* `Fault`, `Checked`: how a type is left, and a computation that may do so.
* `Checked.sum`, `Checked.difference`, `Checked.signedDifference`, `Checked.product`, `Checked.bit`,
  `Checked.conversion`, `Checked.index`: the operations that may.
* `nibbleSumChecked`, `addBytesChecked`, `subBytesChecked` and the same on words: the adder.
* `bitMaskChecked`, `Memory.readChecked`, `Memory.writeChecked`, `InstructionBytes.pushChecked`:
  masks, memory and the bytes of an instruction.

## Main results

* `addBytesChecked_eq`, `subBytesChecked_eq`, `addWordsChecked_eq`, `subWordsChecked_eq`: the adder
  stays within its types, whatever the operands.
* `InstructionBytes.pushChecked_eq`: so does the record of the bytes fetched.
-/

namespace EightBit

/-- How a computation leaves the type that it is made in. -/
inductive Fault
  /-- A sum is too large. -/
  | sum
  /-- A difference is negative, or too large in size for a signed type. -/
  | difference
  /-- A product is too large. -/
  | product
  /-- A shift moves a bit out of the type. -/
  | shift
  /-- A number is too large for the type that it is converted to. -/
  | conversion
  /-- An index is beyond the end. -/
  | index
  deriving DecidableEq, Repr

/-- A computation that may leave its type. -/
abbrev Checked (α : Type) : Type := Except Fault α

namespace Checked

/-- The sum in an unsigned type of `w` bits. -/
def sum (w a b : Nat) : Checked Nat :=
  if a + b < 2 ^ w then .ok (a + b) else .error .sum

/-- The difference in an unsigned type. -/
def difference (a b : Nat) : Checked Nat :=
  if b ≤ a then .ok (a - b) else .error .difference

/-- The difference in a signed type of `w` bits. -/
def signedDifference (w : Nat) (a b : Int) : Checked Int :=
  if -2 ^ (w - 1) ≤ a - b ∧ a - b < 2 ^ (w - 1) then .ok (a - b) else .error .difference

/-- The product in an unsigned type of `w` bits. -/
def product (w a b : Nat) : Checked Nat :=
  if a * b < 2 ^ w then .ok (a * b) else .error .product

/-- A one shifted to bit `k` of a type of `w` bits. -/
def bit (w k : Nat) : Checked Nat :=
  if k < w then .ok (2 ^ k) else .error .shift

/-- A number converted to an unsigned type of `w` bits. -/
def conversion (w n : Nat) : Checked Nat :=
  if n < 2 ^ w then .ok n else .error .conversion

/-- An index into an array. -/
def index (size i : Nat) : Checked Nat :=
  if i < size then .ok i else .error .index

/-- The entry of an opcode in a table of all opcodes. -/
def entry {α : Type} (table : UInt8 → α) (opcode : UInt8) : Checked α := do
  let i ← index 256 opcode.toNat
  return table (.ofNat i)

section

variable {α β : Type} {w a b : Nat}

@[simp] theorem ok_bind (x : α) (f : α → Checked β) : (Except.ok x >>= f) = f x := rfl

@[simp] theorem pure_eq (x : α) : (pure x : Checked α) = .ok x := rfl

theorem sum_eq (h : a + b < 2 ^ w) : sum w a b = .ok (a + b) := if_pos h

theorem difference_eq (h : b ≤ a) : difference a b = .ok (a - b) := if_pos h

theorem signedDifference_eq {a b : Int} (hlow : -2 ^ (w - 1) ≤ a - b)
    (hhigh : a - b < 2 ^ (w - 1)) : signedDifference w a b = .ok (a - b) := if_pos ⟨hlow, hhigh⟩

theorem bit_eq (h : a < w) : bit w a = .ok (2 ^ a) := if_pos h

theorem conversion_eq (h : a < 2 ^ w) : conversion w a = .ok a := if_pos h

theorem index_eq (h : b < a) : index a b = .ok b := if_pos h

/-- Every opcode has an entry. -/
@[simp] theorem entry_eq (table : UInt8 → α) (opcode : UInt8) :
    entry table opcode = .ok (table opcode) := by
  rw [entry, index_eq opcode.toNat_lt, ok_bind, UInt8.ofNat_toNat, pure_eq]

end

end Checked

/-! ### The adder -/

/-- `nibbleSum` in a byte. -/
def nibbleSumChecked (a b : UInt8) (c : Bool) : Checked UInt8 := do
  let digits ← Checked.sum 8 (a &&& 0x0F).toNat (b &&& 0x0F).toNat
  let total ← Checked.sum 8 digits c.toNat
  return .ofNat total

/-- `lowSum` in a word. -/
def lowSumChecked (a b : UInt16) (c : Bool) : Checked UInt16 := do
  let digits ← Checked.sum 16 (a &&& 0x0FFF).toNat (b &&& 0x0FFF).toNat
  let total ← Checked.sum 16 digits c.toNat
  return .ofNat total

/-- `addBytes` with the whole sum in a word, of which the lower byte is the result. -/
def addBytesChecked (a b : UInt8) (c : Bool) : Checked (CarrySum UInt8) := do
  let half ← nibbleSumChecked a b c
  let partialSum ← Checked.sum 16 a.toNat b.toNat
  let total ← Checked.sum 16 partialSum c.toNat
  let result := UInt8.ofNat total
  return {
    result
    half := 0x0F < half
    carry := 0xFF < total
    overflow := isNegative ((a ^^^ result) &&& (b ^^^ result)) }

/-- `subBytes` with the whole difference in a signed word, of which the lower byte is the result and
the sign the borrow. -/
def subBytesChecked (a b : UInt8) (c : Bool) : Checked (CarrySum UInt8) := do
  let partialDifference ← Checked.signedDifference 16 a.toNat b.toNat
  let total ← Checked.signedDifference 16 partialDifference c.toNat
  let result := UInt8.ofInt total
  return {
    result
    half := (a ^^^ b ^^^ result) &&& 0x10 != 0
    carry := total < 0
    overflow := isNegative ((a ^^^ b) &&& (a ^^^ result)) }

/-- `addWords` with the whole sum in a double word, of which the lower word is the result. -/
def addWordsChecked (a b : UInt16) (c : Bool) : Checked (CarrySum UInt16) := do
  let half ← lowSumChecked a b c
  let partialSum ← Checked.sum 32 a.toNat b.toNat
  let total ← Checked.sum 32 partialSum c.toNat
  let result := UInt16.ofNat total
  return {
    result
    half := 0x0FFF < half
    carry := 0xFFFF < total
    overflow := (a ^^^ result) &&& (b ^^^ result) &&& 0x8000 != 0 }

/-- `subWords` with the whole difference in a signed double word, of which the lower word is the
result and the sign the borrow. -/
def subWordsChecked (a b : UInt16) (c : Bool) : Checked (CarrySum UInt16) := do
  let partialDifference ← Checked.signedDifference 32 a.toNat b.toNat
  let total ← Checked.signedDifference 32 partialDifference c.toNat
  let result := UInt16.ofInt total
  return {
    result
    half := (a ^^^ b ^^^ result) &&& 0x1000 != 0
    carry := total < 0
    overflow := (a ^^^ b) &&& (a ^^^ result) &&& 0x8000 != 0 }

theorem ofNat_carry (c : Bool) : UInt8.ofNat c.toNat = carryByte c := by
  cases c <;> rfl

theorem ofNat_carry_word (c : Bool) : UInt16.ofNat c.toNat = (carryByte c).toUInt16 := by
  cases c <;> rfl

theorem byte_ofInt_natCast (n : Nat) : UInt8.ofInt n = .ofNat n := by
  have hmod : ((n : Int) % 2 ^ 8).toNat = n % 2 ^ 8 := by omega
  rw [UInt8.ofInt, hmod]
  exact UInt8.toNat_inj.1 (by simp)

theorem word_ofInt_natCast (n : Nat) : UInt16.ofInt n = .ofNat n := by
  have hmod : ((n : Int) % 2 ^ 16).toNat = n % 2 ^ 16 := by omega
  rw [UInt16.ofInt, hmod]
  exact UInt16.toNat_inj.1 (by simp)

section

variable (c : Bool)

theorem nibbleSumChecked_eq (a b : UInt8) : nibbleSumChecked a b c = .ok (nibbleSum a b c) := by
  have ha : (a &&& 0x0F).toNat ≤ 15 := Nat.and_le_right
  have hb : (b &&& 0x0F).toNat ≤ 15 := Nat.and_le_right
  have hc := c.toNat_le
  rw [nibbleSumChecked, Checked.sum_eq (by omega), Checked.ok_bind, Checked.sum_eq (by omega),
    Checked.ok_bind, UInt8.ofNat_add, UInt8.ofNat_add, UInt8.ofNat_toNat, UInt8.ofNat_toNat,
    ofNat_carry]
  rfl

theorem lowSumChecked_eq (a b : UInt16) : lowSumChecked a b c = .ok (lowSum a b c) := by
  have ha : (a &&& 0x0FFF).toNat ≤ 4095 := Nat.and_le_right
  have hb : (b &&& 0x0FFF).toNat ≤ 4095 := Nat.and_le_right
  have hc := c.toNat_le
  rw [lowSumChecked, Checked.sum_eq (by omega), Checked.ok_bind, Checked.sum_eq (by omega),
    Checked.ok_bind, UInt16.ofNat_add, UInt16.ofNat_add, UInt16.ofNat_toNat, UInt16.ofNat_toNat,
    ofNat_carry_word]
  rfl

/-- The sum of two bytes and a carry fits a word. -/
theorem addBytesChecked_eq (a b : UInt8) : addBytesChecked a b c = .ok (addBytes a b c) := by
  have ha := a.toNat_lt
  have hb := b.toNat_lt
  have hc := c.toNat_le
  have hresult : UInt8.ofNat (a.toNat + b.toNat + c.toNat) = a + b + carryByte c := by
    rw [UInt8.ofNat_add, UInt8.ofNat_add, UInt8.ofNat_toNat, UInt8.ofNat_toNat, ofNat_carry]
  rw [addBytesChecked, nibbleSumChecked_eq, Checked.ok_bind, Checked.sum_eq (by omega),
    Checked.ok_bind, Checked.sum_eq (by omega), Checked.ok_bind, hresult]
  rfl

/-- The difference of two bytes and a borrow fits a signed word. -/
theorem subBytesChecked_eq (a b : UInt8) : subBytesChecked a b c = .ok (subBytes a b c) := by
  have ha := a.toNat_lt
  have hb := b.toNat_lt
  have hc := c.toNat_le
  have hresult : UInt8.ofInt (a.toNat - b.toNat - c.toNat) = a - b - carryByte c := by
    rw [Int.sub_eq_add_neg, Int.sub_eq_add_neg, UInt8.ofInt_add, UInt8.ofInt_add, UInt8.ofInt_neg,
      UInt8.ofInt_neg, byte_ofInt_natCast, byte_ofInt_natCast, byte_ofInt_natCast,
      UInt8.ofNat_toNat, UInt8.ofNat_toNat, ofNat_carry, UInt8.sub_eq_add_neg,
      UInt8.sub_eq_add_neg]
  have hcarry : decide ((a.toNat : Int) - b.toNat - c.toNat < 0) =
      decide (a.toNat < b.toNat + c.toNat) := by
    rw [decide_eq_decide]
    omega
  rw [subBytesChecked, Checked.signedDifference_eq (by omega) (by omega), Checked.ok_bind,
    Checked.signedDifference_eq (by omega) (by omega), Checked.ok_bind, hresult, hcarry]
  rfl

/-- The sum of two words and a carry fits a double word. -/
theorem addWordsChecked_eq (a b : UInt16) : addWordsChecked a b c = .ok (addWords a b c) := by
  have ha := a.toNat_lt
  have hb := b.toNat_lt
  have hc := c.toNat_le
  have hresult : UInt16.ofNat (a.toNat + b.toNat + c.toNat) =
      a + b + (carryByte c).toUInt16 := by
    rw [UInt16.ofNat_add, UInt16.ofNat_add, UInt16.ofNat_toNat, UInt16.ofNat_toNat,
      ofNat_carry_word]
  rw [addWordsChecked, lowSumChecked_eq, Checked.ok_bind, Checked.sum_eq (by omega),
    Checked.ok_bind, Checked.sum_eq (by omega), Checked.ok_bind, hresult]
  rfl

/-- The difference of two words and a borrow fits a signed double word. -/
theorem subWordsChecked_eq (a b : UInt16) : subWordsChecked a b c = .ok (subWords a b c) := by
  have ha := a.toNat_lt
  have hb := b.toNat_lt
  have hc := c.toNat_le
  have hresult : UInt16.ofInt (a.toNat - b.toNat - c.toNat) =
      a - b - (carryByte c).toUInt16 := by
    rw [Int.sub_eq_add_neg, Int.sub_eq_add_neg, UInt16.ofInt_add, UInt16.ofInt_add,
      UInt16.ofInt_neg, UInt16.ofInt_neg, word_ofInt_natCast, word_ofInt_natCast,
      word_ofInt_natCast, UInt16.ofNat_toNat, UInt16.ofNat_toNat, ofNat_carry_word,
      UInt16.sub_eq_add_neg, UInt16.sub_eq_add_neg]
  have hcarry : decide ((a.toNat : Int) - b.toNat - c.toNat < 0) =
      decide (a.toNat < b.toNat + c.toNat) := by
    rw [decide_eq_decide]
    omega
  rw [subWordsChecked, Checked.signedDifference_eq (by omega) (by omega), Checked.ok_bind,
    Checked.signedDifference_eq (by omega) (by omega), Checked.ok_bind, hresult, hcarry]
  rfl

end

/-! ### Masks, memory and the bytes of an instruction -/

/-- `bitMask` in a byte. -/
def bitMaskChecked (k : UInt8) : Checked UInt8 := do
  let mask ← Checked.bit 8 k.toNat
  return .ofNat mask

/-- A bit number of a byte has a mask. -/
theorem bitMaskChecked_eq {k : UInt8} (h : k < 8) : bitMaskChecked k = .ok (bitMask k) := by
  have hmask : ∀ k : UInt8, k < 8 → UInt8.ofNat (2 ^ k.toNat) = bitMask k :=
    forall_byte (by decide)
  have hlt : k.toNat < 8 := h
  rw [bitMaskChecked, Checked.bit_eq hlt, Checked.ok_bind, hmask k h, Checked.pure_eq]

/-- What is done with the mask of a bit of a byte. -/
theorem bind_bitMaskChecked {α : Type} {k : UInt8} (h : k < 8) (f : UInt8 → Checked α) :
    (bitMaskChecked k >>= f) = f (bitMask k) := by
  rw [bitMaskChecked_eq h, Checked.ok_bind]

namespace Memory

variable (m : Memory)

/-- The byte at an index. -/
def readChecked (i : Nat) : Checked UInt8 := do
  let i ← Checked.index addressCount i
  return m.read (.ofNat i)

/-- Replaces the byte at an index. -/
def writeChecked (i : Nat) (b : UInt8) : Checked Memory := do
  let i ← Checked.index addressCount i
  return m.write (.ofNat i) b

theorem readChecked_eq {i : Nat} (h : i < addressCount) :
    m.readChecked i = .ok (m.read (.ofNat i)) := by
  rw [readChecked, Checked.index_eq h, Checked.ok_bind, Checked.pure_eq]

theorem writeChecked_eq {i : Nat} (h : i < addressCount) (b : UInt8) :
    m.writeChecked i b = .ok (m.write (.ofNat i) b) := by
  rw [writeChecked, Checked.index_eq h, Checked.ok_bind, Checked.pure_eq]

/-- Every address is an index. -/
theorem readChecked_toNat (a : UInt16) : m.readChecked a.toNat = .ok (m.read a) := by
  rw [m.readChecked_eq (lt_addressCount a), UInt16.ofNat_toNat]

theorem writeChecked_toNat (a : UInt16) (b : UInt8) :
    m.writeChecked a.toNat b = .ok (m.write a b) := by
  rw [m.writeChecked_eq (lt_addressCount a), UInt16.ofNat_toNat]

end Memory

/-- Appends a fetched byte, the number of bytes kept being a byte itself; bytes past the fourth are
dropped. -/
def InstructionBytes.pushChecked (bs : InstructionBytes) (b : UInt8) : Checked InstructionBytes :=
  if bs.length < maxInstructionBytes then do
    let _ ← Checked.index maxInstructionBytes bs.length
    let _ ← Checked.sum 8 bs.length 1
    return bs.push b
  else return bs

theorem InstructionBytes.pushChecked_eq (bs : InstructionBytes) (b : UInt8) :
    bs.pushChecked b = .ok (bs.push b) := by
  rw [pushChecked]
  split
  next h =>
    have hlength : bs.length < 4 := h
    rw [Checked.index_eq h, Checked.ok_bind, Checked.sum_eq (by omega), Checked.ok_bind,
      Checked.pure_eq]
  next h =>
    rw [push, dif_neg h, Checked.pure_eq]

end EightBit
