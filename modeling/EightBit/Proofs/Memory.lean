import EightBit.FlatBus

/-!
# What many writes leave behind

What reading finds after bytes were stored or copied to consecutive addresses. An address is inside
the run if its distance from the start, which wraps at the end of the address space, is less than
the length. Bytes may also be written one by one, each with an address of its own.

## Main results

* `Memory.read_store`: a run of bytes is found where it was stored, and nothing else is changed.
* `Memory.slice_succ`: a run of bytes, read from the first one on.
* `Memory.read_copy_of_outside`: copying changes its target only.
* `Memory.read_copy_of_inside`: a run of bytes is found where it was copied.
* `Memory.read_foldl_write`: a byte of a list is found at its address.
* `FlatBus.readWord_pushWord`: a word put onto the stack is found on top of it.
-/

namespace EightBit

namespace Memory

/-- An address beyond the start of a run is one nearer to the next address. -/
theorem toNat_sub_of_ne {a c : UInt16} (h : a ≠ c) :
    (c - a).toNat = (c - (a + 1)).toNat + 1 := by
  have hne : a.toNat ≠ c.toNat := fun hn => h (UInt16.toNat_inj.1 hn)
  have ha := a.toNat_lt
  have hc := c.toNat_lt
  simp only [UInt16.toNat_sub, UInt16.toNat_add, UInt16.reduceToNat]
  omega

/-- The start of a run is the last address that is reached from the next one. -/
theorem toNat_sub_add_one_self (a : UInt16) : (a - (a + 1)).toNat = addressCount - 1 := by
  have ha := a.toNat_lt
  change _ = 65535
  simp only [UInt16.toNat_sub, UInt16.toNat_add, UInt16.reduceToNat]
  omega

/-- A run of bytes is found where it was stored, and nothing else is changed. -/
theorem read_store (m : Memory) (a c : UInt16) (bs : List UInt8) (hbs : bs.length ≤ addressCount) :
    (m.store a bs).read c = bs.getD (c - a).toNat (m.read c) := by
  induction bs generalizing m a with
  | nil => rfl
  | cons b bs ih =>
    have hlt : bs.length ≤ addressCount - 1 := Nat.le_sub_one_of_lt hbs
    rw [store, ih _ _ (Nat.le_trans hlt (Nat.sub_le _ _)), read_write]
    by_cases h : a = c
    · subst h
      rw [if_pos rfl, toNat_sub_add_one_self, List.getD_eq_getElem?_getD,
        List.getElem?_eq_none hlt, UInt16.sub_self]
      rfl
    · rw [if_neg h, toNat_sub_of_ne h, List.getD_cons_succ]

/-- A run of bytes stored in memory that is otherwise blank. -/
theorem read_store_blank (a c : UInt16) {bs : List UInt8} (hbs : bs.length ≤ addressCount) :
    (blank.store a bs).read c = bs.getD (c - a).toNat 0 := by
  rw [read_store _ a c _ hbs, read_blank]

theorem read_store_zero_blank (c : UInt16) {bs : List UInt8} (hbs : bs.length ≤ addressCount) :
    (blank.store 0 bs).read c = bs.getD c.toNat 0 := by
  rw [read_store_blank 0 c hbs, UInt16.sub_zero]

/-- The first byte of a run of addresses, and the others. -/
theorem slice_succ (m : Memory) (a : UInt16) (n : Nat) :
    m.slice a (n + 1) = m.read a :: m.slice (a + 1) n := by
  have hnext (i : Nat) : a + UInt16.ofNat (i + 1) = a + 1 + UInt16.ofNat i := by
    rw [Nat.add_comm, UInt16.ofNat_add, ← UInt16.add_assoc, UInt16.ofNat_one]
  simp only [slice, List.range_succ_eq_map, List.map_cons, List.map_map, Function.comp_def, hnext]
  rw [show a + UInt16.ofNat 0 = a from UInt16.add_zero a]

/-- A run of bytes is the first `n` of them and the others. -/
theorem slice_add (m : Memory) (a : UInt16) (n k : Nat) :
    m.slice a (n + k) = m.slice a n ++ m.slice (a + .ofNat n) k := by
  have hnext (i : Nat) : a + UInt16.ofNat (n + i) = a + UInt16.ofNat n + UInt16.ofNat i := by
    rw [UInt16.ofNat_add, UInt16.add_assoc]
  simp only [slice, List.range_add, List.map_append, List.map_map, Function.comp_def, hnext]

/-- Copying changes its target only. -/
theorem read_copy_of_outside (m : Memory) (source target : UInt16) {c : UInt16} {n : Nat}
    (h : n ≤ (c - target).toNat) : (m.copy source target n).read c = m.read c := by
  induction n generalizing m source target with
  | zero => rfl
  | succ n ih =>
    have hne : target ≠ c := by
      rintro rfl
      simp at h
    rw [toNat_sub_of_ne hne] at h
    rw [copy, ih _ _ _ (Nat.le_of_succ_le_succ h), read_write_of_ne _ _ hne]

/-- A run of bytes is found where it was copied, if the target does not begin inside the source. -/
theorem read_copy_of_inside (m : Memory) {source target c : UInt16} {n : Nat}
    (hapart : n ≤ (target - source).toNat) (hc : (c - target).toNat < n) :
    (m.copy source target n).read c = m.read (source + (c - target)) := by
  induction n generalizing m source target with
  | zero => exact absurd hc (Nat.not_lt_zero _)
  | succ n ih =>
    rw [copy]
    by_cases h : target = c
    · -- The byte copied first is not copied over: the others go behind it.
      subst h
      have hlast : n ≤ (target - (target + 1)).toNat := by
        rw [toNat_sub_add_one_self]
        exact Nat.le_sub_one_of_lt (Nat.lt_trans hapart (lt_addressCount _))
      rw [read_copy_of_outside _ _ _ hlast, read_write_self, UInt16.sub_self, UInt16.add_zero]
    · -- The source of a later byte is not what the first one is copied to.
      have hsource : target ≠ source + (c - target) := by
        intro heq
        have hdistance : target - source = c - target := by grind
        rw [hdistance] at hapart
        exact absurd hc (Nat.not_lt.2 hapart)
      have hnext : source + 1 + (c - (target + 1)) = source + (c - target) := by grind
      rw [toNat_sub_of_ne h] at hc
      have hapart : n ≤ (target + 1 - (source + 1)).toNat := by
        have heq : target + 1 - (source + 1) = target - source := by grind
        rw [heq]
        exact Nat.le_of_succ_le hapart
      rw [ih _ hapart (Nat.lt_of_succ_lt_succ hc), hnext, read_write_of_ne _ _ hsource]

/-! ### Bytes with their addresses -/

section

variable {r : UInt16} {v : UInt8} {bytes : List (UInt16 × UInt8)}

/-- A list of bytes with their addresses, written one after the other, leaves other addresses
alone. -/
theorem read_foldl_write_of_not_mem (m : Memory) (h : r ∉ bytes.map Prod.fst) :
    (bytes.foldl (fun m (a, v) => m.write a v) m).read r = m.read r := by
  induction bytes generalizing m with
  | nil => rfl
  | cons b bytes ih =>
    rw [List.map_cons, List.mem_cons, not_or] at h
    rw [List.foldl_cons, ih _ h.2, read_write_of_ne _ _ (Ne.symm h.1)]

/-- A byte of the list is found at its address if no other has the same. -/
theorem read_foldl_write (m : Memory) (hdistinct : (bytes.map Prod.fst).Nodup)
    (h : (r, v) ∈ bytes) : (bytes.foldl (fun m (a, v) => m.write a v) m).read r = v := by
  induction bytes generalizing m with
  | nil => exact absurd h List.not_mem_nil
  | cons b bytes ih =>
    rw [List.map_cons, List.nodup_cons] at hdistinct
    rw [List.foldl_cons]
    rcases List.mem_cons.1 h with rfl | htail
    · rw [read_foldl_write_of_not_mem _ hdistinct.1, read_write_self]
    · exact ih _ hdistinct.2 htail

end

end Memory

/-- A word put onto the stack is found on top of it. -/
theorem FlatBus.readWord_pushWord (bus : FlatBus) (sp w : UInt16) :
    readWord (pushWord bus sp w) (sp - 2) = w := by
  have hne : sp - 2 ≠ sp - 1 := by grind
  have hupper : sp - 2 + 1 = sp - 1 := by grind
  rw [readWord, pushWord, hupper, read_eq, read_eq, memory_write, memory_write,
    Memory.read_write_self, Memory.read_write_of_ne _ _ hne, Memory.read_write_self,
    word_hiByte_loByte]

end EightBit
