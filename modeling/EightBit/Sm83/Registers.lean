import EightBit.Operand

/-!
# The register file of the SM83

Seven byte registers, the flags, the stack pointer and the program counter. Pairs are composed with
the register named first in the upper byte. Only the upper four bits of the flag register exist;
writing the pair `AF` clears the others.

## Main definitions

* `Registers`, with `pair` and `setPair` for every register pair.
* `Flag`, `Registers.flag`, `Registers.setFlag`, `flagByte`.
* `Cond`, `Registers.holds`: branch conditions.

## Main results

* `Registers.pair_setPair`: what is written to a pair is read back, up to the missing flag bits.
-/

namespace EightBit.Sm83

/-- The bits of the flag register that do not exist and read as zero. -/
def unusedFlagBits : UInt8 := 0x0F

/-- The register file. -/
structure Registers where
  a : UInt8
  f : UInt8
  b : UInt8
  c : UInt8
  d : UInt8
  e : UInt8
  h : UInt8
  l : UInt8
  sp : UInt16
  pc : UInt16
  deriving DecidableEq, Repr

/-- A flag, named for what it reports. -/
inductive Flag
  /-- The result is zero. -/
  | z
  /-- The last operation subtracted. -/
  | n
  /-- Carry out of the low nibble. -/
  | h
  /-- Carry. -/
  | c
  deriving DecidableEq, Repr

/-- The bit of a flag in the flag register. -/
def Flag.mask : Flag → UInt8
  | .z => 0x80
  | .n => 0x40
  | .h => 0x20
  | .c => 0x10

/-- The flag register with the given flags. -/
@[inline] def flagByte (z n h c : Bool) : UInt8 :=
  (if z then Flag.z.mask else 0) ||| (if n then Flag.n.mask else 0) |||
    (if h then Flag.h.mask else 0) ||| (if c then Flag.c.mask else 0)

namespace Registers

/-- Every register zero. -/
def zero : Registers where
  a := 0
  f := 0
  b := 0
  c := 0
  d := 0
  e := 0
  h := 0
  l := 0
  sp := 0
  pc := 0

instance : Inhabited Registers := ⟨zero⟩

/-- The accumulator and the flags, without the flag bits that do not exist. -/
@[inline] def af (r : Registers) : UInt16 :=
  word r.a (r.f &&& ~~~unusedFlagBits)

@[inline] def bc (r : Registers) : UInt16 := word r.b r.c

@[inline] def de (r : Registers) : UInt16 := word r.d r.e

@[inline] def hl (r : Registers) : UInt16 := word r.h r.l

/-- Sets the accumulator and the flags; the flag bits that do not exist stay zero. -/
@[inline] def setAf (r : Registers) (w : UInt16) : Registers :=
  { r with a := hiByte w, f := loByte w &&& ~~~unusedFlagBits }

@[inline] def setBc (r : Registers) (w : UInt16) : Registers :=
  { r with b := hiByte w, c := loByte w }

@[inline] def setDe (r : Registers) (w : UInt16) : Registers :=
  { r with d := hiByte w, e := loByte w }

@[inline] def setHl (r : Registers) (w : UInt16) : Registers :=
  { r with h := hiByte w, l := loByte w }

/-- The value of a register pair. -/
def pair (r : Registers) : Pair → UInt16
  | .bc => r.bc
  | .de => r.de
  | .hl => r.hl
  | .sp => r.sp
  | .af => r.af

/-- Sets a register pair. -/
def setPair (r : Registers) (p : Pair) (w : UInt16) : Registers :=
  match p with
  | .bc => r.setBc w
  | .de => r.setDe w
  | .hl => r.setHl w
  | .sp => { r with sp := w }
  | .af => r.setAf w

/-- Whether a flag is set. -/
@[inline] def flag (r : Registers) (x : Flag) : Bool :=
  r.f &&& x.mask != 0

/-- Sets or clears a flag. -/
@[inline] def setFlag (r : Registers) (x : Flag) (on : Bool) : Registers :=
  { r with f := if on then r.f ||| x.mask else r.f &&& ~~~x.mask }

/-- Clears the whole flag register. -/
@[inline] def clearFlags (r : Registers) : Registers :=
  { r with f := 0 }

end Registers

/-- A branch condition. -/
inductive Cond
  /-- The zero flag is clear. -/
  | nz
  /-- The zero flag is set. -/
  | z
  /-- The carry flag is clear. -/
  | nc
  /-- The carry flag is set. -/
  | c
  deriving DecidableEq, Repr

namespace Cond

/-- The condition of a field, of which the lowest two bits count. -/
def ofCode (code : UInt8) : Cond :=
  match code &&& 3 with
  | 0 => nz
  | 1 => z
  | 2 => nc
  | _ => c

/-- The condition as an assembler writes it. -/
def name : Cond → String
  | nz => "NZ"
  | z => "Z"
  | nc => "NC"
  | c => "C"

end Cond

namespace Registers

/-- Whether a condition holds. -/
def holds (r : Registers) : Cond → Bool
  | .nz => !r.flag .z
  | .z => r.flag .z
  | .nc => !r.flag .c
  | .c => r.flag .c

/-! ### Pairs -/

@[simp] theorem pc_setPair (r : Registers) (p : Pair) (w : UInt16) : (r.setPair p w).pc = r.pc := by
  cases p <;> rfl

/-- What is written to a pair is read back, up to the flag bits that do not exist. -/
theorem pair_setPair (r : Registers) (p : Pair) (w : UInt16) :
    (r.setPair p w).pair p =
      if p = .af then word (hiByte w) (loByte w &&& ~~~unusedFlagBits) else w := by
  cases p <;>
    simp [pair, setPair, setBc, setDe, setHl, setAf, bc, de, hl, af, UInt8.and_assoc]

end Registers

end EightBit.Sm83
