import EightBit.Proofs.Bits
import EightBit.Sm83.Interrupt

/-!
# Sets of interrupt sources, bit by bit

A set of interrupt sources is a byte. Here membership, emptiness and the most urgent member are read
off its bits: the most urgent source is the one of the lowest set bit.

## Main results

* `InterruptSource.hasBit_mask`: the mask of a source is the bit at its position.
* `Interrupts.contains_eq_hasBit`: membership is a bit.
* `Interrupts.highest?_eq_some_iff`: the most urgent member has the lowest bit.
* `Interrupts.exists_highest?`: every set of known sources but the empty one has a most urgent
  member.
-/

namespace EightBit.Sm83

namespace InterruptSource

theorem index_lt (source : InterruptSource) : source.index < 5 := by
  cases source <;> decide

theorem index_inj {x y : InterruptSource} (h : x.index = y.index) : x = y := by
  cases x <;> cases y <;> first | rfl | cases h

/-- Sources are listed by position. -/
theorem index_all {k : Nat} (h : k < all.length) : (all[k]).index = k := by
  revert k
  decide

/-- The vector of a source lies eight bytes per position above `0x40`. -/
theorem vector_eq (source : InterruptSource) :
    source.vector = 0x40 + 8 * UInt16.ofNat source.index := by
  cases source <;> rfl

/-- The mask of a source is the bit at its position. -/
@[simp] theorem hasBit_mask (source : InterruptSource) (k : Nat) :
    hasBit source.mask k = decide (k = source.index) := by
  by_cases hk : k < 8
  · cases source <;> revert hk <;> revert k <;> decide
  · have hne : k ≠ source.index := by
      have := source.index_lt
      omega
    rw [decide_eq_false hne, ← Bool.not_eq_true]
    exact fun h => hk (lt_of_hasBit h)

end InterruptSource

namespace Interrupts

/-- Membership in a set of sources is a bit. -/
theorem contains_eq_hasBit (i : Interrupts) (source : InterruptSource) :
    i.contains source = hasBit i.bits source.index :=
  and_mask_bne_zero _ fun k _ => source.hasBit_mask k

/-- The bits of known sources are the lowest five. -/
theorem lt_of_hasBit_known {b : UInt8} {k : Nat} (h : hasBit (b &&& knownBits) k = true) :
    k < 5 := by
  rw [hasBit_and, Bool.and_eq_true] at h
  have hk := lt_of_hasBit h.2
  have hknown : ∀ k < 8, hasBit knownBits k = true → k < 5 := by decide
  exact hknown k hk h.2

/-- The most urgent member of a set is the one with the lowest bit. -/
theorem highest?_eq_some_iff (i : Interrupts) (source : InterruptSource) :
    i.highest? = some source ↔ IsLowestBit i.bits source.index := by
  rw [highest?, List.find?_eq_some_iff_getElem]
  constructor
  · rintro ⟨hset, k, hk, rfl, hbelow⟩
    rw [InterruptSource.index_all hk]
    refine ⟨?_, fun j hj => ?_⟩
    · rwa [contains_eq_hasBit, InterruptSource.index_all hk] at hset
    · have hclear := hbelow j hj
      rwa [contains_eq_hasBit, InterruptSource.index_all, Bool.not_eq_true'] at hclear
  · intro h
    refine ⟨by rw [contains_eq_hasBit, h.hasBit], source.index, source.index_lt, ?_, fun j hj => ?_⟩
    · exact InterruptSource.index_inj (InterruptSource.index_all source.index_lt)
    · rw [contains_eq_hasBit, InterruptSource.index_all, h.below j hj, Bool.not_false]

/-- Every set of known sources but the empty one has a most urgent member. -/
theorem exists_highest? {b : UInt8} (h : b &&& knownBits ≠ 0) :
    ∃ source, (ofBits b).highest? = some source := by
  obtain ⟨k, hk⟩ := exists_isLowestBit h
  have hlt : k < InterruptSource.all.length := lt_of_hasBit_known hk.hasBit
  refine ⟨InterruptSource.all[k], (highest?_eq_some_iff _ _).2 ?_⟩
  rwa [InterruptSource.index_all hlt]

end Interrupts

end EightBit.Sm83
