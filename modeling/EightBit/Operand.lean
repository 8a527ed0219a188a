import EightBit.Word

/-!
# Operands that both processors encode

The SM83 and the Z80 share the encodings of their operands: a three-bit code names a byte operand,
an arithmetic operation or a shift, a two-bit code a register pair. Where a code means different
things to the two, each decoder chooses.

## Main definitions

* `Reg8`, `Pair`: byte operands and register pairs.
* `AluOp`: operations between the accumulator and a byte.
* `ShiftOp`, `ShiftOp.apply`: rotations and shifts of a byte, and their effect.
-/

namespace EightBit

/-- A byte operand. -/
inductive Reg8
  | b
  | c
  | d
  | e
  | h
  | l
  /-- The byte in memory that the pair `HL` points to. -/
  | atHl
  | a
  deriving DecidableEq, Repr

namespace Reg8

/-- The operand of a register field, of which the lowest three bits count. -/
def ofCode (code : UInt8) : Reg8 :=
  match code &&& 7 with
  | 0 => b
  | 1 => c
  | 2 => d
  | 3 => e
  | 4 => h
  | 5 => l
  | 6 => atHl
  | _ => a

/-- Whether the operand is in memory. -/
def isIndirect : Reg8 → Bool
  | atHl => true
  | _ => false

/-- Whether the operand is the pair `HL`, half of it, or what it points to. -/
def usesHl : Reg8 → Bool
  | h | l | atHl => true
  | _ => false

/-- The operand as an assembler writes it. -/
def name : Reg8 → String
  | b => "B"
  | c => "C"
  | d => "D"
  | e => "E"
  | h => "H"
  | l => "L"
  | atHl => "(HL)"
  | a => "A"

end Reg8

/-- A register pair. -/
inductive Pair
  | bc
  | de
  | hl
  | sp
  | af
  deriving DecidableEq, Repr

namespace Pair

/-- The pair of the field in loads and arithmetic, where code 3 is the stack pointer. -/
def ofCode (code : UInt8) : Pair :=
  match code &&& 3 with
  | 0 => bc
  | 1 => de
  | 2 => hl
  | _ => sp

/-- The pair of the field in stack operations, where code 3 is the accumulator and the flags. -/
def ofStackCode (code : UInt8) : Pair :=
  match code &&& 3 with
  | 0 => bc
  | 1 => de
  | 2 => hl
  | _ => af

/-- The pair as an assembler writes it. -/
def name : Pair → String
  | bc => "BC"
  | de => "DE"
  | hl => "HL"
  | sp => "SP"
  | af => "AF"

end Pair

/-- An operation between the accumulator and a byte. -/
inductive AluOp
  | add
  /-- Addition with the carry flag. -/
  | adc
  | sub
  /-- Subtraction with the carry flag. -/
  | sbc
  | and
  | xor
  | or
  /-- Subtraction of which only the flags are kept. -/
  | cp
  deriving DecidableEq, Repr

namespace AluOp

/-- The operation of a field, of which the lowest three bits count. -/
def ofCode (code : UInt8) : AluOp :=
  match code &&& 7 with
  | 0 => add
  | 1 => adc
  | 2 => sub
  | 3 => sbc
  | 4 => and
  | 5 => xor
  | 6 => or
  | _ => cp

/-- The name of an operation. -/
def name : AluOp → String
  | add => "ADD"
  | adc => "ADC"
  | sub => "SUB"
  | sbc => "SBC"
  | and => "AND"
  | xor => "XOR"
  | or => "OR"
  | cp => "CP"

/-- The operation as an assembler writes it in front of its operand: the three that have a form on
words too name the accumulator. -/
def mnemonic (op : AluOp) : String :=
  match op with
  | add | adc | sbc => op.name ++ " A,"
  | _ => op.name ++ " "

end AluOp

/-- A rotation or shift of a byte. -/
inductive ShiftOp
  /-- Rotate left. -/
  | rlc
  /-- Rotate right. -/
  | rrc
  /-- Rotate left through the carry. -/
  | rl
  /-- Rotate right through the carry. -/
  | rr
  /-- Shift left. -/
  | sla
  /-- Shift right, keeping the sign. -/
  | sra
  /-- Exchange the nibbles. -/
  | swap
  /-- Shift left, filling with a one. -/
  | sll
  /-- Shift right, filling with a zero. -/
  | srl
  deriving DecidableEq, Repr

namespace ShiftOp

/-- The name of an operation. -/
def name : ShiftOp → String
  | rlc => "RLC"
  | rrc => "RRC"
  | rl => "RL"
  | rr => "RR"
  | sla => "SLA"
  | sra => "SRA"
  | swap => "SWAP"
  | sll => "SLL"
  | srl => "SRL"

/-- The byte that `op` makes of `v` when the carry is `c`. -/
def result (op : ShiftOp) (c : Bool) (v : UInt8) : UInt8 :=
  match op with
  | rlc => (v <<< 1) ||| (v >>> 7)
  | rrc => (v >>> 1) ||| (v <<< 7)
  | rl => (v <<< 1) ||| carryByte c
  | rr => (v >>> 1) ||| (carryByte c <<< 7)
  | sla => v <<< 1
  | sra => (v >>> 1) ||| (v &&& 0x80)
  | swap => (v <<< 4) ||| (v >>> 4)
  | sll => (v <<< 1) ||| 1
  | srl => v >>> 1

/-- The bit of `v` that `op` moves out. -/
def carryOut (op : ShiftOp) (v : UInt8) : Bool :=
  match op with
  | rlc | rl | sla | sll => isNegative v
  | rrc | rr | sra | srl => isOdd v
  | swap => false

end ShiftOp

/-- The byte in which only bit `k` is set, for `k` below eight. -/
@[inline] def bitMask (k : UInt8) : UInt8 :=
  1 <<< k

end EightBit
