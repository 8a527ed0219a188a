/-!
# The bits of a byte

Registers whose bits have meanings of their own are compared bit by bit. Bits beyond the eighth are
never set.

## Main definitions

* `hasBit`: whether a bit of a byte is set.
* `IsLowestBit`: the position of the lowest set bit.
* `BitsWithin`: the bits of a byte are among those of another.
* `AgreeOn`: two bytes have the same bits under a mask.

## Main results

* `ext_hasBit`: a byte is determined by its bits.
* `and_mask_bne_zero`: how programs test a bit.
* `exists_isLowestBit`, `IsLowestBit.unique`: every byte but zero has exactly one lowest set bit.
-/

namespace EightBit

/-- Whether bit `k` of a byte is set. -/
def hasBit (b : UInt8) (k : Nat) : Bool :=
  b.toBitVec.getLsbD k

/-- Bit `k` of a byte is set, and no bit below it. -/
structure IsLowestBit (b : UInt8) (k : Nat) : Prop where
  hasBit : hasBit b k = true
  below : ∀ j, j < k → EightBit.hasBit b j = false

/-- Every bit set in `a` is set in `b`. -/
def BitsWithin (a b : UInt8) : Prop :=
  ∀ k, hasBit a k = true → hasBit b k = true

/-- The bytes `a` and `b` have the same bits under the mask `m`. -/
def AgreeOn (m a b : UInt8) : Prop :=
  a &&& m = b &&& m

/-- What holds of any two hexadecimal digits holds of every byte. -/
theorem forall_byte {P : UInt8 → Prop} (h : ∀ hi lo : Fin 16, P (.ofNat (16 * hi + lo)))
    (b : UInt8) : P b := by
  have hb : b.toNat < 256 := b.toNat_lt
  have hdigits := h ⟨b.toNat / 16, by omega⟩ ⟨b.toNat % 16, by omega⟩
  rwa [Nat.div_add_mod, UInt8.ofNat_toNat] at hdigits

theorem lt_of_hasBit {b : UInt8} {k : Nat} (h : hasBit b k = true) : k < 8 :=
  BitVec.lt_of_getLsbD h

@[simp] theorem hasBit_zero (k : Nat) : hasBit 0 k = false :=
  BitVec.getLsbD_zero

@[simp] theorem hasBit_or (a b : UInt8) (k : Nat) :
    hasBit (a ||| b) k = (hasBit a k || hasBit b k) := by
  rw [hasBit, UInt8.toBitVec_or, BitVec.getLsbD_or]
  rfl

@[simp] theorem hasBit_and (a b : UInt8) (k : Nat) :
    hasBit (a &&& b) k = (hasBit a k && hasBit b k) := by
  rw [hasBit, UInt8.toBitVec_and, BitVec.getLsbD_and]
  rfl

theorem hasBit_not (b : UInt8) {k : Nat} (hk : k < 8) : hasBit (~~~b) k = !hasBit b k := by
  rw [hasBit, UInt8.toBitVec_not, BitVec.getLsbD_not, decide_eq_true hk, Bool.true_and]
  rfl

/-- The bits that a mask clears. -/
@[simp] theorem hasBit_and_not (a b : UInt8) (k : Nat) :
    hasBit (a &&& ~~~b) k = (hasBit a k && !hasBit b k) := by
  rw [hasBit_and]
  rcases Bool.eq_false_or_eq_true (hasBit a k) with h | h
  · rw [hasBit_not b (lt_of_hasBit h)]
  · rw [h, Bool.false_and, Bool.false_and]

theorem BitsWithin.refl (a : UInt8) : BitsWithin a a := fun _ => id

theorem BitsWithin.trans {a b c : UInt8} (hab : BitsWithin a b) (hbc : BitsWithin b c) :
    BitsWithin a c := fun k h => hbc k (hab k h)

theorem BitsWithin.or (a b : UInt8) : BitsWithin a (a ||| b) := fun k h => by
  rw [hasBit_or, h, Bool.true_or]

/-- A byte is determined by its bits. -/
theorem ext_hasBit {a b : UInt8} (h : ∀ k, hasBit a k = hasBit b k) : a = b :=
  UInt8.toBitVec_inj.1 (BitVec.eq_of_getLsbD_eq fun k _ => h k)

/-- A mask acts on both bytes of a union. -/
theorem or_and_mask (a b m : UInt8) : (a ||| b) &&& m = (a &&& m) ||| (b &&& m) := by
  refine ext_hasBit fun k => ?_
  rw [hasBit_and, hasBit_or, hasBit_or, hasBit_and, hasBit_and, Bool.and_or_distrib_right]

/-- Clearing bits that are clear changes nothing. -/
theorem and_not_eq_self {a m : UInt8} (h : a &&& m = 0) : a &&& ~~~m = a := by
  refine ext_hasBit fun k => ?_
  have hk : (hasBit a k && hasBit m k) = false := by
    rw [← hasBit_and, h, hasBit_zero]
  rw [hasBit_and_not]
  rcases Bool.and_eq_false_iff.1 hk with ha | hm
  · rw [ha, Bool.false_and]
  · rw [hm, Bool.not_false, Bool.and_true]

/-- Bits that have been cleared are clear. -/
theorem and_not_and_self (a m : UInt8) : a &&& ~~~m &&& m = 0 := by
  refine ext_hasBit fun k => ?_
  rw [hasBit_and, hasBit_and_not, hasBit_zero, Bool.and_assoc, Bool.not_and_self, Bool.and_false]

namespace AgreeOn

variable {m k a b c : UInt8}

theorem of_eq (h : a = b) : AgreeOn m a b :=
  congrArg (· &&& m) h

theorem trans (h : AgreeOn m a b) (h' : AgreeOn m b c) : AgreeOn m a c :=
  Eq.trans h h'

/-- Under no bits there is nothing to agree on. -/
theorem zero (a b : UInt8) : AgreeOn 0 a b := by
  rw [AgreeOn, UInt8.and_zero, UInt8.and_zero]

/-- Bytes that differ in bits of `k` at most agree under a mask without these. -/
theorem of_not (h : AgreeOn (~~~k) a b) (hm : k &&& m = 0) : AgreeOn m a b := by
  refine ext_hasBit fun j => ?_
  have hout : (hasBit a j && !hasBit k j) = (hasBit b j && !hasBit k j) := by
    rw [← hasBit_and_not, ← hasBit_and_not]
    exact congrArg (hasBit · j) h
  have hdisjoint : (hasBit k j && hasBit m j) = false := by
    rw [← hasBit_and, hm, hasBit_zero]
  rw [hasBit_and, hasBit_and]
  rcases Bool.and_eq_false_iff.1 hdisjoint with hk | hj
  · rw [hk, Bool.not_false, Bool.and_true, Bool.and_true] at hout
    rw [hout]
  · rw [hj, Bool.and_false, Bool.and_false]

end AgreeOn

theorem ne_zero_of_hasBit {b : UInt8} {k : Nat} (h : hasBit b k = true) : b ≠ 0 := by
  rintro rfl
  exact Bool.false_ne_true ((hasBit_zero k).symm.trans h)

/-- Testing a byte against a mask of one bit tests that bit. -/
theorem and_mask_bne_zero (b : UInt8) {m : UInt8} {k : Nat}
    (hm : ∀ j < 8, hasBit m j = decide (j = k)) : (b &&& m != 0) = hasBit b k := by
  rw [Bool.eq_iff_iff, bne_iff_ne]
  constructor
  · intro h
    refine Bool.of_not_eq_false fun hclear => h (ext_hasBit fun j => ?_)
    rw [hasBit_and, hasBit_zero, Bool.and_eq_false_iff]
    by_cases hj : j = k
    · exact .inl (hj ▸ hclear)
    · refine .inr (Bool.eq_false_iff.2 fun hset => ?_)
      rw [hm j (lt_of_hasBit hset), decide_eq_true_eq] at hset
      exact hj hset
  · intro h
    refine ne_zero_of_hasBit (k := k) ?_
    rw [hasBit_and, h, hm k (lt_of_hasBit h), decide_eq_true rfl, Bool.and_self]

theorem IsLowestBit.unique {b : UInt8} {j k : Nat} (hj : IsLowestBit b j) (hk : IsLowestBit b k) :
    j = k := by
  rcases Nat.lt_trichotomy j k with h | h | h
  · exact absurd hj.hasBit (by simp [hk.below j h])
  · exact h
  · exact absurd hk.hasBit (by simp [hj.below k h])

/-- A byte with a set bit has a lowest one. -/
theorem exists_isLowestBit_of_hasBit {b : UInt8} {k : Nat} (h : hasBit b k = true) :
    ∃ j, IsLowestBit b j := by
  induction k using Nat.strongRecOn with
  | ind k ih =>
    by_cases hlow : ∀ j, j < k → hasBit b j = false
    · exact ⟨k, h, hlow⟩
    · obtain ⟨j, hj⟩ := Classical.not_forall.1 hlow
      obtain ⟨hjk, hset⟩ := Classical.not_imp.1 hj
      exact ih j hjk (Bool.of_not_eq_false hset)

/-- Every byte but zero has a lowest set bit. -/
theorem exists_isLowestBit {b : UInt8} (h : b ≠ 0) : ∃ k, IsLowestBit b k := by
  refine Classical.byContradiction fun hn => h (ext_hasBit fun k => ?_)
  rw [hasBit_zero, ← Bool.not_eq_true]
  exact fun hk => hn (exists_isLowestBit_of_hasBit hk)

end EightBit
