import EightBit.Word

/-!
# A 64 KiB address space

The contents of an address space of `2 ^ 16` bytes. Every word is an address, so reading and
writing are total, and runs of addresses wrap from the last to the first.

## Main definitions

* `Memory`, `Memory.read`, `Memory.write`: contents, a byte of them, and one byte replaced.
* `Memory.store`, `Memory.copy`, `Memory.slice`: runs of consecutive addresses.

## Main results

* `Memory.read_write`: a write shows at its own address and nowhere else.
* `Memory.ext`: contents are equal when all their bytes are.
-/

namespace EightBit

/-- The number of addresses. -/
abbrev addressCount : Nat := 65536

/-- The contents of an address space. -/
structure Memory where
  /-- The byte at each address. -/
  cells : Vector UInt8 addressCount
  deriving DecidableEq

namespace Memory

theorem lt_addressCount (a : UInt16) : a.toNat < addressCount :=
  a.toNat_lt

/-- Every byte is `b`. -/
def uniform (b : UInt8) : Memory :=
  ⟨Vector.replicate addressCount b⟩

/-- Every byte is zero. -/
def blank : Memory := uniform 0

instance : Inhabited Memory := ⟨blank⟩

/-- The byte at an address. -/
@[inline] def read (m : Memory) (a : UInt16) : UInt8 :=
  have := lt_addressCount a
  m.cells[a.toNat]

/-- Replaces the byte at an address. -/
@[inline] def write (m : Memory) (a : UInt16) (b : UInt8) : Memory :=
  ⟨m.cells.set a.toNat b (lt_addressCount a)⟩

/-- The bytes at `n` consecutive addresses from `a` on. -/
def slice (m : Memory) (a : UInt16) (n : Nat) : List UInt8 :=
  (List.range n).map fun i => m.read (a + UInt16.ofNat i)

/-- Writes bytes at consecutive addresses from `a` on. -/
def store (m : Memory) (a : UInt16) : List UInt8 → Memory
  | [] => m
  | b :: bs => (m.write a b).store (a + 1) bs

/-- Copies `n` bytes, one after the other, from `source` on to `target` on. -/
def copy (m : Memory) (source target : UInt16) : (n : Nat) → Memory
  | 0 => m
  | n + 1 => (m.write target (m.read source)).copy (source + 1) (target + 1) n

/-! ### What a write changes -/

@[simp] theorem read_uniform (b : UInt8) (a : UInt16) : (uniform b).read a = b := by
  simp [uniform, read]

@[simp] theorem read_blank (a : UInt16) : blank.read a = 0 :=
  read_uniform 0 a

theorem read_write (m : Memory) (a c : UInt16) (b : UInt8) :
    (m.write a b).read c = if a = c then b else m.read c := by
  simp only [read, write, Vector.getElem_set, UInt16.toNat_inj]

@[simp] theorem read_write_self (m : Memory) (a : UInt16) (b : UInt8) :
    (m.write a b).read a = b := by
  rw [read_write, if_pos rfl]

theorem read_write_of_ne (m : Memory) {a c : UInt16} (b : UInt8) (h : a ≠ c) :
    (m.write a b).read c = m.read c := by
  rw [read_write, if_neg h]

/-- Contents are equal when all their bytes are. -/
theorem ext {m k : Memory} (h : ∀ a, m.read a = k.read a) : m = k := by
  obtain ⟨cells⟩ := m
  obtain ⟨cells'⟩ := k
  congr 1
  apply Vector.ext
  intro i hi
  have := h (UInt16.ofNat i)
  simpa only [read, UInt16.toNat_ofNat_of_lt' hi] using this

@[simp] theorem write_read_self (m : Memory) (a : UInt16) : m.write a (m.read a) = m := by
  apply ext
  intro c
  rw [read_write]
  split
  next h => rw [h]
  next => rfl

end Memory

end EightBit
