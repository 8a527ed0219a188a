import EightBit.Sm83.Instruction

/-!
# Decoding the opcodes of the SM83

An opcode is decoded by its fields: the upper two bits select a quarter of the table, and the six
others hold register, pair, operation and condition codes. Each opcode has an instruction and a
base cost in T-cycles; a taken branch costs more, which is charged when it executes. The second
page follows the prefix `CB`, and its costs leave out the four cycles of the prefix.

## Main definitions

* `Entry`: an instruction with its base cost.
* `primary`, `cb`: the two pages of opcodes.
* `shiftOfCode`: the shifts in the order of the second page.
-/

namespace EightBit.Sm83

/-- An instruction and its base cost in T-cycles. -/
structure Entry where
  cycles : Nat
  instruction : Instruction
  deriving DecidableEq, Repr

/-- The shift of a field, of which the lowest three bits count. -/
def shiftOfCode (code : UInt8) : ShiftOp :=
  match code &&& 7 with
  | 0 => .rlc
  | 1 => .rrc
  | 2 => .rl
  | 3 => .rr
  | 4 => .sla
  | 5 => .sra
  | 6 => .swap
  | _ => .srl

namespace Decode

/-- The field in bits 3 to 5. -/
@[inline] def middle (opcode : UInt8) : UInt8 := (opcode >>> 3) &&& 7

/-- The field in bits 4 and 5. -/
@[inline] def pairField (opcode : UInt8) : UInt8 := middle opcode >>> 1

/-- Opcodes `00` to `3F`: loads, increments, relative jumps and accumulator operations. -/
def firstQuarter (opcode : UInt8) : Entry :=
  let y := middle opcode
  let p := pairField opcode
  let even := !isOdd y
  match opcode &&& 7 with
  | 0 =>
    match y with
    | 0 => ⟨4, .nop⟩
    | 1 => ⟨20, .storeSp⟩
    | 2 => ⟨4, .stop⟩
    | 3 => ⟨12, .jr⟩
    | _ => ⟨8, .jrIf (.ofCode (y - 4))⟩
  | 1 => if even then ⟨12, .loadPairImm (.ofCode p)⟩ else ⟨8, .addHl (.ofCode p)⟩
  | 2 => if even then ⟨8, .storeIndirect (.ofCode p)⟩ else ⟨8, .loadIndirect (.ofCode p)⟩
  | 3 => if even then ⟨8, .inc16 (.ofCode p)⟩ else ⟨8, .dec16 (.ofCode p)⟩
  | 4 => let x := Reg8.ofCode y; ⟨if x.isIndirect then 12 else 4, .inc8 x⟩
  | 5 => let x := Reg8.ofCode y; ⟨if x.isIndirect then 12 else 4, .dec8 x⟩
  | 6 => let x := Reg8.ofCode y; ⟨if x.isIndirect then 12 else 8, .loadImm x⟩
  | _ =>
    match y with
    | 0 => ⟨4, .rlca⟩
    | 1 => ⟨4, .rrca⟩
    | 2 => ⟨4, .rla⟩
    | 3 => ⟨4, .rra⟩
    | 4 => ⟨4, .daa⟩
    | 5 => ⟨4, .cpl⟩
    | 6 => ⟨4, .scf⟩
    | _ => ⟨4, .ccf⟩

/-- Opcodes `40` to `7F`: loads between byte operands; the place of a load from memory to itself is
taken by `HALT`. -/
def secondQuarter (opcode : UInt8) : Entry :=
  if opcode = 0x76 then ⟨4, .halt⟩
  else
    let dst := Reg8.ofCode (middle opcode)
    let src := Reg8.ofCode opcode
    ⟨if dst.isIndirect || src.isIndirect then 8 else 4, .load dst src⟩

/-- Opcodes `80` to `BF`: the accumulator and a byte operand. -/
def thirdQuarter (opcode : UInt8) : Entry :=
  let src := Reg8.ofCode opcode
  ⟨if src.isIndirect then 8 else 4, .alu (.ofCode (middle opcode)) src⟩

/-- Opcodes `C0` to `FF`: jumps, calls, stack operations, immediate arithmetic and loads from the
last page; eleven of them have no meaning. -/
def fourthQuarter (opcode : UInt8) : Entry :=
  let y := middle opcode
  let p := pairField opcode
  match opcode with
  | 0xC0 | 0xC8 | 0xD0 | 0xD8 => ⟨8, .retIf (.ofCode y)⟩
  | 0xE0 => ⟨12, .storeHighImm⟩
  | 0xE8 => ⟨16, .addSp⟩
  | 0xF0 => ⟨12, .loadHighImm⟩
  | 0xF8 => ⟨12, .loadHlSp⟩
  | 0xC1 | 0xD1 | 0xE1 | 0xF1 => ⟨12, .pop (.ofStackCode p)⟩
  | 0xC9 => ⟨16, .ret⟩
  | 0xD9 => ⟨16, .reti⟩
  | 0xE9 => ⟨4, .jpHl⟩
  | 0xF9 => ⟨8, .loadSpHl⟩
  | 0xC2 | 0xCA | 0xD2 | 0xDA => ⟨12, .jpIf (.ofCode y)⟩
  | 0xE2 => ⟨8, .storeHighC⟩
  | 0xEA => ⟨16, .storeAbs⟩
  | 0xF2 => ⟨8, .loadHighC⟩
  | 0xFA => ⟨16, .loadAbs⟩
  | 0xC3 => ⟨16, .jp⟩
  | 0xCB => ⟨4, .prefixCb⟩
  | 0xF3 => ⟨4, .di⟩
  | 0xFB => ⟨4, .ei⟩
  | 0xC4 | 0xCC | 0xD4 | 0xDC => ⟨12, .callIf (.ofCode y)⟩
  | 0xC5 | 0xD5 | 0xE5 | 0xF5 => ⟨16, .push (.ofStackCode p)⟩
  | 0xCD => ⟨24, .call⟩
  | 0xC6 | 0xCE | 0xD6 | 0xDE | 0xE6 | 0xEE | 0xF6 | 0xFE => ⟨8, .aluImm (.ofCode y)⟩
  | 0xC7 | 0xCF | 0xD7 | 0xDF | 0xE7 | 0xEF | 0xF7 | 0xFF => ⟨16, .rst (opcode &&& 0x38)⟩
  | _ => ⟨4, .invalid opcode⟩

/-- The instruction of an opcode that follows no prefix. -/
def primary (opcode : UInt8) : Entry :=
  match opcode >>> 6 with
  | 0 => firstQuarter opcode
  | 1 => secondQuarter opcode
  | 2 => thirdQuarter opcode
  | _ => fourthQuarter opcode

/-- The instruction of an opcode that follows the prefix. An operand in memory is read and written
back, except by a bit test, which only reads. -/
def cb (opcode : UInt8) : Entry :=
  let y := middle opcode
  let x := Reg8.ofCode opcode
  let update := if x.isIndirect then 12 else 4
  match opcode >>> 6 with
  | 0 => ⟨update, .shift (shiftOfCode y) x⟩
  | 1 => ⟨if x.isIndirect then 8 else 4, .bit y x⟩
  | 2 => ⟨update, .res y x⟩
  | _ => ⟨update, .set y x⟩

end Decode

end EightBit.Sm83
