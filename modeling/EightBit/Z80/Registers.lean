import EightBit.Operand

/-!
# The register file of the Z80

The main registers, the alternate set that only exchanges reach, the index registers, and the
interrupt and refresh registers. Two bits of the flag register, which on the chip copy bits of
results, are always zero here.

## Main definitions

* `Registers`, with `pair` and `setPair` for every register pair.
* `Registers.exchangeAf`, `Registers.exchangeAll`, `Registers.refresh`.
* `Flag`, `Registers.flag`, `Registers.setFlag`.
* `Cond`, `Registers.holds`: branch conditions.
* `IndexMode`, `Registers.index`, `Registers.setIndex`: the register that stands for `HL`.
-/

namespace EightBit.Z80

/-- The bits of the flag register that are always zero. -/
def unusedFlagBits : UInt8 := 0x28

/-- The alternate set. -/
structure AltRegisters where
  a : UInt8
  f : UInt8
  b : UInt8
  c : UInt8
  d : UInt8
  e : UInt8
  h : UInt8
  l : UInt8
  deriving DecidableEq, Repr

/-- The register file. -/
structure Registers where
  a : UInt8
  f : UInt8
  b : UInt8
  c : UInt8
  d : UInt8
  e : UInt8
  h : UInt8
  l : UInt8
  ix : UInt16
  iy : UInt16
  sp : UInt16
  pc : UInt16
  /-- The upper byte of the interrupt table in mode 2. -/
  i : UInt8
  /-- The refresh counter, of which the lower seven bits count opcode fetches. -/
  r : UInt8
  alt : AltRegisters
  deriving DecidableEq, Repr

/-- A flag. -/
inductive Flag
  /-- The result is negative. -/
  | s
  /-- The result is zero. -/
  | z
  /-- Carry out of the low nibble. -/
  | h
  /-- The parity of the result is even, or a signed result does not fit. -/
  | pv
  /-- The last operation subtracted. -/
  | n
  /-- Carry. -/
  | c
  deriving DecidableEq, Repr

/-- The bit of a flag in the flag register. -/
def Flag.mask : Flag → UInt8
  | .s => 0x80
  | .z => 0x40
  | .h => 0x10
  | .pv => 0x04
  | .n => 0x02
  | .c => 0x01

/-- A branch condition. -/
inductive Cond
  | nz
  | z
  | nc
  | c
  /-- The parity is odd, or there was no overflow. -/
  | po
  /-- The parity is even, or there was an overflow. -/
  | pe
  /-- The sign is positive. -/
  | p
  /-- The sign is negative. -/
  | m
  deriving DecidableEq, Repr

namespace Cond

/-- The condition of a field, of which the lowest three bits count. -/
def ofCode (code : UInt8) : Cond :=
  match code &&& 7 with
  | 0 => nz
  | 1 => z
  | 2 => nc
  | 3 => c
  | 4 => po
  | 5 => pe
  | 6 => p
  | _ => m

/-- The condition as an assembler writes it. -/
def name : Cond → String
  | nz => "NZ"
  | z => "Z"
  | nc => "NC"
  | c => "C"
  | po => "PO"
  | pe => "PE"
  | p => "P"
  | m => "M"

end Cond

/-- The register that an instruction uses as `HL`, as its index prefix says. -/
inductive IndexMode
  | hl
  | ix
  | iy
  deriving DecidableEq, Repr

namespace IndexMode

/-- The name of the register. -/
def name : IndexMode → String
  | hl => "HL"
  | ix => "IX"
  | iy => "IY"

/-- The memory operand it points to, as an assembler writes it. -/
def memoryName : IndexMode → String
  | hl => "(HL)"
  | ix => "(IX+d)"
  | iy => "(IY+d)"

/-- The names of its halves. -/
def upperName : IndexMode → String
  | hl => "H"
  | ix => "IXH"
  | iy => "IYH"

def lowerName : IndexMode → String
  | hl => "L"
  | ix => "IXL"
  | iy => "IYL"

/-- A register pair under the mode, as an assembler writes it. -/
def pairName (m : IndexMode) : Pair → String
  | .hl => m.name
  | p => p.name

/-- A byte operand under the mode, as an assembler writes it. With `plain` the halves of `HL` keep
their names, as they do beside a memory operand. -/
def operandName (m : IndexMode) (plain : Bool) : Reg8 → String
  | .h => if plain then "H" else m.upperName
  | .l => if plain then "L" else m.lowerName
  | .atHl => m.memoryName
  | x => x.name

end IndexMode

namespace AltRegisters

/-- Every register zero. -/
def zero : AltRegisters where
  a := 0
  f := 0
  b := 0
  c := 0
  d := 0
  e := 0
  h := 0
  l := 0

end AltRegisters

namespace Registers

/-- Every register zero. -/
def zero : Registers where
  a := 0
  f := 0
  b := 0
  c := 0
  d := 0
  e := 0
  h := 0
  l := 0
  ix := 0
  iy := 0
  sp := 0
  pc := 0
  i := 0
  r := 0
  alt := .zero

instance : Inhabited Registers := ⟨zero⟩

/-- The accumulator and the flags, without the flag bits that are always zero. -/
@[inline] def af (r : Registers) : UInt16 :=
  word r.a (r.f &&& ~~~unusedFlagBits)

@[inline] def bc (r : Registers) : UInt16 := word r.b r.c

@[inline] def de (r : Registers) : UInt16 := word r.d r.e

@[inline] def hl (r : Registers) : UInt16 := word r.h r.l

/-- Sets the accumulator and the flags; the flag bits that are always zero stay so. -/
@[inline] def setAf (r : Registers) (w : UInt16) : Registers :=
  { r with a := hiByte w, f := loByte w &&& ~~~unusedFlagBits }

@[inline] def setBc (r : Registers) (w : UInt16) : Registers :=
  { r with b := hiByte w, c := loByte w }

@[inline] def setDe (r : Registers) (w : UInt16) : Registers :=
  { r with d := hiByte w, e := loByte w }

@[inline] def setHl (r : Registers) (w : UInt16) : Registers :=
  { r with h := hiByte w, l := loByte w }

/-- The value of a register pair. -/
def pair (r : Registers) : Pair → UInt16
  | .bc => r.bc
  | .de => r.de
  | .hl => r.hl
  | .sp => r.sp
  | .af => r.af

/-- Sets a register pair. -/
def setPair (r : Registers) (p : Pair) (w : UInt16) : Registers :=
  match p with
  | .bc => r.setBc w
  | .de => r.setDe w
  | .hl => r.setHl w
  | .sp => { r with sp := w }
  | .af => r.setAf w

/-- The register that stands for `HL` in a mode. -/
def index (r : Registers) : IndexMode → UInt16
  | .hl => r.hl
  | .ix => r.ix
  | .iy => r.iy

/-- Sets the register that stands for `HL` in a mode. -/
def setIndex (r : Registers) (m : IndexMode) (w : UInt16) : Registers :=
  match m with
  | .hl => r.setHl w
  | .ix => { r with ix := w }
  | .iy => { r with iy := w }

/-- A register pair in a mode. -/
def modePair (r : Registers) (m : IndexMode) : Pair → UInt16
  | .hl => r.index m
  | p => r.pair p

/-- Sets a register pair in a mode. -/
def setModePair (r : Registers) (m : IndexMode) (p : Pair) (w : UInt16) : Registers :=
  match p with
  | .hl => r.setIndex m w
  | p => r.setPair p w

/-- Whether a flag is set. -/
@[inline] def flag (r : Registers) (x : Flag) : Bool :=
  r.f &&& x.mask != 0

/-- Sets or clears a flag. -/
@[inline] def setFlag (r : Registers) (x : Flag) (on : Bool) : Registers :=
  { r with f := if on then r.f ||| x.mask else r.f &&& ~~~x.mask }

/-- Clears the whole flag register. -/
@[inline] def clearFlags (r : Registers) : Registers :=
  { r with f := 0 }

/-- Whether a condition holds. -/
def holds (r : Registers) : Cond → Bool
  | .nz => !r.flag .z
  | .z => r.flag .z
  | .nc => !r.flag .c
  | .c => r.flag .c
  | .po => !r.flag .pv
  | .pe => r.flag .pv
  | .p => !r.flag .s
  | .m => r.flag .s

/-- Exchanges the accumulator and the flags with the alternate ones. -/
def exchangeAf (r : Registers) : Registers :=
  { r with
    a := r.alt.a
    f := r.alt.f &&& ~~~unusedFlagBits
    alt := { r.alt with a := r.a, f := r.f &&& ~~~unusedFlagBits } }

/-- Exchanges the three general pairs with the alternate ones. -/
def exchangeAll (r : Registers) : Registers :=
  { r with
    b := r.alt.b
    c := r.alt.c
    d := r.alt.d
    e := r.alt.e
    h := r.alt.h
    l := r.alt.l
    alt := { r.alt with b := r.b, c := r.c, d := r.d, e := r.e, h := r.h, l := r.l } }

/-- Counts one opcode fetch; bit 7 of the refresh counter is kept. -/
@[inline] def refresh (r : Registers) : Registers :=
  { r with r := (r.r &&& 0x80) ||| ((r.r + 1) &&& 0x7F) }

end Registers

end EightBit.Z80
