import EightBit.Z80.Instruction

/-!
# Decoding the opcodes of the Z80

Five pages of opcodes, told apart by prefixes. An opcode is decoded by its fields: the upper two
bits select a quarter of its page, and the six others hold register, pair, operation and condition
codes. Each opcode has an instruction and a base cost in T-cycles; a taken branch and a block
instruction that repeats cost more, which is charged when they execute. The cost of a prefix is its
own entry, and the entries of the other pages leave it out.

## Main definitions

* `Entry`: an instruction with its base cost.
* `Decode.primary`, `Decode.cb`, `Decode.ed`, `Decode.index`, `Decode.indexCb`: the pages.
* `shiftOfCode`: the shifts in the order of their page.
-/

namespace EightBit.Z80

/-- An instruction and its base cost in T-cycles. -/
structure Entry where
  cycles : Nat
  instruction : Instruction
  deriving DecidableEq, Repr

/-- The shift of a field, of which the lowest three bits count. -/
def shiftOfCode (code : UInt8) : ShiftOp :=
  match code &&& 7 with
  | 0 => .rlc
  | 1 => .rrc
  | 2 => .rl
  | 3 => .rr
  | 4 => .sla
  | 5 => .sra
  | 6 => .sll
  | _ => .srl

namespace Decode

/-- The field in bits 3 to 5. -/
@[inline] def middle (opcode : UInt8) : UInt8 := (opcode >>> 3) &&& 7

/-- The field in bits 4 and 5. -/
@[inline] def pairField (opcode : UInt8) : UInt8 := middle opcode >>> 1

/-- Opcodes `00` to `3F`: loads, increments, relative jumps and accumulator operations. -/
def firstQuarter (opcode : UInt8) : Entry :=
  let y := middle opcode
  let p := pairField opcode
  let even := !isOdd y
  match opcode &&& 7 with
  | 0 =>
    match y with
    | 0 => ⟨4, .nop⟩
    | 1 => ⟨4, .exAf⟩
    | 2 => ⟨8, .djnz⟩
    | 3 => ⟨12, .jr⟩
    | _ => ⟨7, .jrIf (.ofCode (y - 4))⟩
  | 1 => if even then ⟨10, .loadPairImm (.ofCode p)⟩ else ⟨11, .addHl (.ofCode p)⟩
  | 2 =>
    match y with
    | 0 => ⟨7, .storeBc⟩
    | 1 => ⟨7, .loadBc⟩
    | 2 => ⟨7, .storeDe⟩
    | 3 => ⟨7, .loadDe⟩
    | 4 => ⟨16, .storeHlAbs⟩
    | 5 => ⟨16, .loadHlAbs⟩
    | 6 => ⟨13, .storeAbs⟩
    | _ => ⟨13, .loadAbs⟩
  | 3 => if even then ⟨6, .inc16 (.ofCode p)⟩ else ⟨6, .dec16 (.ofCode p)⟩
  | 4 => let x := Reg8.ofCode y; ⟨if x.isIndirect then 11 else 4, .inc8 x⟩
  | 5 => let x := Reg8.ofCode y; ⟨if x.isIndirect then 11 else 4, .dec8 x⟩
  | 6 => let x := Reg8.ofCode y; ⟨if x.isIndirect then 10 else 7, .loadImm x⟩
  | _ =>
    match y with
    | 0 => ⟨4, .rlca⟩
    | 1 => ⟨4, .rrca⟩
    | 2 => ⟨4, .rla⟩
    | 3 => ⟨4, .rra⟩
    | 4 => ⟨4, .daa⟩
    | 5 => ⟨4, .cpl⟩
    | 6 => ⟨4, .scf⟩
    | _ => ⟨4, .ccf⟩

/-- Opcodes `40` to `7F`: loads between byte operands; the place of a load from memory to itself is
taken by `HALT`. -/
def secondQuarter (opcode : UInt8) : Entry :=
  if opcode = 0x76 then ⟨4, .halt⟩
  else
    let dst := Reg8.ofCode (middle opcode)
    let src := Reg8.ofCode opcode
    ⟨if dst.isIndirect || src.isIndirect then 7 else 4, .load dst src⟩

/-- Opcodes `80` to `BF`: the accumulator and a byte operand. -/
def thirdQuarter (opcode : UInt8) : Entry :=
  let src := Reg8.ofCode opcode
  ⟨if src.isIndirect then 7 else 4, .alu (.ofCode (middle opcode)) src⟩

/-- Opcodes `C0` to `FF`: jumps, calls, stack and device operations, immediate arithmetic, and the
prefixes. -/
def fourthQuarter (opcode : UInt8) : Entry :=
  let y := middle opcode
  let p := pairField opcode
  let even := !isOdd y
  match opcode &&& 7 with
  | 0 => ⟨5, .retIf (.ofCode y)⟩
  | 1 =>
    if even then ⟨10, .pop (.ofStackCode p)⟩
    else
      match p with
      | 0 => ⟨10, .ret⟩
      | 1 => ⟨4, .exx⟩
      | 2 => ⟨4, .jpHl⟩
      | _ => ⟨6, .loadSpHl⟩
  | 2 => ⟨10, .jpIf (.ofCode y)⟩
  | 3 =>
    match y with
    | 0 => ⟨10, .jp⟩
    | 1 => ⟨4, .prefixCb⟩
    | 2 => ⟨11, .outImm⟩
    | 3 => ⟨11, .inImm⟩
    | 4 => ⟨19, .exSpHl⟩
    | 5 => ⟨4, .exDeHl⟩
    | 6 => ⟨4, .di⟩
    | _ => ⟨4, .ei⟩
  | 4 => ⟨10, .callIf (.ofCode y)⟩
  | 5 =>
    if even then ⟨11, .push (.ofStackCode p)⟩
    else
      match p with
      | 0 => ⟨17, .call⟩
      | 1 => ⟨4, .prefixIx⟩
      | 2 => ⟨4, .prefixEd⟩
      | _ => ⟨4, .prefixIy⟩
  | 6 => ⟨7, .aluImm (.ofCode y)⟩
  | _ => ⟨11, .rst (opcode &&& 0x38)⟩

/-- The instruction of an opcode that follows no prefix. -/
def primary (opcode : UInt8) : Entry :=
  match opcode >>> 6 with
  | 0 => firstQuarter opcode
  | 1 => secondQuarter opcode
  | 2 => thirdQuarter opcode
  | _ => fourthQuarter opcode

/-- The instruction of an opcode that follows `CB`. An operand in memory is read and written back,
except by a bit test, which only reads. -/
def cb (opcode : UInt8) : Entry :=
  let y := middle opcode
  let x := Reg8.ofCode opcode
  let update := if x.isIndirect then 11 else 4
  match opcode >>> 6 with
  | 0 => ⟨update, .shift (shiftOfCode y) x⟩
  | 1 => ⟨if x.isIndirect then 8 else 4, .bit y x⟩
  | 2 => ⟨update, .res y x⟩
  | _ => ⟨update, .set y x⟩

/-- The register of a field in which code 6 means that there is none. -/
def register? (code : UInt8) : Option Reg8 :=
  if code = 6 then none else some (.ofCode code)

/-- The interrupt mode that a field selects. -/
def interruptMode (y : UInt8) : UInt8 :=
  match y &&& 3 with
  | 2 => 1
  | 3 => 2
  | _ => 0

/-- Opcodes `40` to `7F` after `ED`: devices, words, interrupts and the accumulator's
neighbours. -/
def edSecondQuarter (opcode : UInt8) : Entry :=
  let y := middle opcode
  let p := pairField opcode
  let even := !isOdd y
  match opcode &&& 7 with
  | 0 => ⟨8, .inC (register? y)⟩
  | 1 => ⟨8, .outC (register? y)⟩
  | 2 => if even then ⟨11, .sbcHl (.ofCode p)⟩ else ⟨11, .adcHl (.ofCode p)⟩
  | 3 => if even then ⟨16, .storePairAbs (.ofCode p)⟩ else ⟨16, .loadPairAbs (.ofCode p)⟩
  | 4 => ⟨4, .neg⟩
  | 5 => ⟨10, if y = 1 then .reti else .retn⟩
  | 6 => ⟨4, .im (interruptMode y)⟩
  | _ =>
    match y with
    | 0 => ⟨5, .loadIA⟩
    | 1 => ⟨5, .loadRA⟩
    | 2 => ⟨5, .loadAI⟩
    | 3 => ⟨5, .loadAR⟩
    | 4 => ⟨14, .rrd⟩
    | 5 => ⟨14, .rld⟩
    | _ => ⟨4, .invalid opcode⟩

/-- Opcodes `80` to `BF` after `ED`: the block instructions. -/
def edThirdQuarter (opcode : UInt8) : Entry :=
  let y := middle opcode
  if y < 4 then ⟨4, .invalid opcode⟩
  else
    let increment := !isOdd y
    let repeats := 6 ≤ y
    match opcode &&& 7 with
    | 0 => ⟨12, .block .load increment repeats⟩
    | 1 => ⟨12, .block .compare increment repeats⟩
    | 2 => ⟨12, .block .input increment repeats⟩
    | 3 => ⟨12, .block .output increment repeats⟩
    | _ => ⟨4, .invalid opcode⟩

/-- The instruction of an opcode that follows `ED`; most have no meaning. -/
def ed (opcode : UInt8) : Entry :=
  match opcode >>> 6 with
  | 1 => edSecondQuarter opcode
  | 2 => edThirdQuarter opcode
  | _ => ⟨4, .invalid opcode⟩

/-- What an index prefix adds to the cost of an instruction: the time to fetch a displacement and
to add it, where there is one. Beside an immediate byte part of that time is free. -/
def indexCost : Instruction → Nat
  | .load dst src => if dst.isIndirect || src.isIndirect then 8 else 0
  | .loadImm dst => if dst.isIndirect then 5 else 0
  | .inc8 x | .dec8 x | .alu _ x => if x.isIndirect then 8 else 0
  | _ => 0

/-- The instruction of an opcode that follows an index prefix. -/
def index (opcode : UInt8) : Entry :=
  match opcode with
  | 0xCB => ⟨0, .prefixIndexCb⟩
  | _ =>
    let e := primary opcode
    ⟨e.cycles + indexCost e.instruction, e.instruction⟩

/-- The instruction of an opcode that follows an index prefix, `CB` and a displacement. Unless the
register field says memory, the result also goes to that register. -/
def indexCb (opcode : UInt8) : Entry :=
  let y := middle opcode
  let copy := register? (opcode &&& 7)
  match opcode >>> 6 with
  | 0 => ⟨19, .indexShift (shiftOfCode y) copy⟩
  | 1 => ⟨16, .indexBit y⟩
  | 2 => ⟨19, .indexRes y copy⟩
  | _ => ⟨19, .indexSet y copy⟩

end Decode

end EightBit.Z80
