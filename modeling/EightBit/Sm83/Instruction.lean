import EightBit.Sm83.Registers
import EightBit.Text.Hex

/-!
# Instructions of the SM83

An instruction names what to do and with which operands. Immediate operands are not part of it:
they are fetched while it executes. Opcodes without a meaning are instructions of their own.

## Main definitions

* `Indirect`: the pointers of the accumulator loads.
* `Instruction`, `Instruction.mnemonic`: the instruction set and its assembler text.
-/

namespace EightBit.Sm83

/-- The pointer of a load between the accumulator and memory. -/
inductive Indirect
  | bc
  | de
  /-- `HL`, which is incremented afterwards. -/
  | hlInc
  /-- `HL`, which is decremented afterwards. -/
  | hlDec
  deriving DecidableEq, Repr

namespace Indirect

/-- The pointer of a field, of which the lowest two bits count. -/
def ofCode (code : UInt8) : Indirect :=
  match code &&& 3 with
  | 0 => bc
  | 1 => de
  | 2 => hlInc
  | _ => hlDec

/-- The pointer as an assembler writes it. -/
def name : Indirect → String
  | bc => "(BC)"
  | de => "(DE)"
  | hlInc => "(HL+)"
  | hlDec => "(HL-)"

/-- The address a pointer holds. -/
def address (r : Registers) : Indirect → UInt16
  | bc => r.bc
  | de => r.de
  | hlInc | hlDec => r.hl

/-- The registers after the pointer has been used. -/
def advance (r : Registers) : Indirect → Registers
  | bc | de => r
  | hlInc => r.setHl (r.hl + 1)
  | hlDec => r.setHl (r.hl - 1)

end Indirect

/-- An instruction. -/
inductive Instruction
  | nop
  | stop
  | halt
  | di
  | ei
  /-- Copies one byte operand to another. -/
  | load (dst src : Reg8)
  /-- Loads an immediate byte. -/
  | loadImm (dst : Reg8)
  /-- Loads an immediate word. -/
  | loadPairImm (dst : Pair)
  /-- Stores the accumulator where a pointer points. -/
  | storeIndirect (p : Indirect)
  /-- Loads the accumulator from where a pointer points. -/
  | loadIndirect (p : Indirect)
  /-- Stores the stack pointer at an immediate address. -/
  | storeSp
  /-- Stores the accumulator in the last page, at an immediate offset. -/
  | storeHighImm
  /-- Loads the accumulator from the last page, at an immediate offset. -/
  | loadHighImm
  /-- Stores the accumulator in the last page, at the offset in `C`. -/
  | storeHighC
  /-- Loads the accumulator from the last page, at the offset in `C`. -/
  | loadHighC
  /-- Stores the accumulator at an immediate address. -/
  | storeAbs
  /-- Loads the accumulator from an immediate address. -/
  | loadAbs
  /-- Copies `HL` to the stack pointer. -/
  | loadSpHl
  /-- Loads `HL` with the stack pointer and an immediate displacement. -/
  | loadHlSp
  | inc8 (x : Reg8)
  | dec8 (x : Reg8)
  | inc16 (p : Pair)
  | dec16 (p : Pair)
  /-- Adds a pair to `HL`. -/
  | addHl (p : Pair)
  /-- Adds an immediate displacement to the stack pointer. -/
  | addSp
  /-- Combines the accumulator with a byte operand. -/
  | alu (op : AluOp) (src : Reg8)
  /-- Combines the accumulator with an immediate byte. -/
  | aluImm (op : AluOp)
  | rlca
  | rrca
  | rla
  | rra
  | daa
  | cpl
  | scf
  | ccf
  | jr
  | jrIf (cc : Cond)
  | jp
  | jpIf (cc : Cond)
  | jpHl
  | call
  | callIf (cc : Cond)
  | ret
  | retIf (cc : Cond)
  | reti
  /-- Calls one of the fixed addresses in the first page. -/
  | rst (vector : UInt8)
  | push (p : Pair)
  | pop (p : Pair)
  /-- The prefix of the second page of opcodes. -/
  | prefixCb
  | shift (op : ShiftOp) (x : Reg8)
  | bit (k : UInt8) (x : Reg8)
  | res (k : UInt8) (x : Reg8)
  | set (k : UInt8) (x : Reg8)
  /-- An opcode without a meaning. -/
  | invalid (opcode : UInt8)
  deriving DecidableEq, Repr

namespace Instruction

/-- A bit number as an assembler writes it. -/
def bitName (k : UInt8) : String :=
  toString k.toNat

/-- The instruction as an assembler writes it, with immediate operands named by their kind. -/
def mnemonic : Instruction → String
  | nop => "NOP"
  | stop => "STOP"
  | halt => "HALT"
  | di => "DI"
  | ei => "EI"
  | load dst src => "LD " ++ dst.name ++ "," ++ src.name
  | loadImm dst => "LD " ++ dst.name ++ ",d8"
  | loadPairImm dst => "LD " ++ dst.name ++ ",d16"
  | storeIndirect p => "LD " ++ p.name ++ ",A"
  | loadIndirect p => "LD A," ++ p.name
  | storeSp => "LD (a16),SP"
  | storeHighImm => "LDH (a8),A"
  | loadHighImm => "LDH A,(a8)"
  | storeHighC => "LD (C),A"
  | loadHighC => "LD A,(C)"
  | storeAbs => "LD (a16),A"
  | loadAbs => "LD A,(a16)"
  | loadSpHl => "LD SP,HL"
  | loadHlSp => "LD HL,SP+r8"
  | inc8 x => "INC " ++ x.name
  | dec8 x => "DEC " ++ x.name
  | inc16 p => "INC " ++ p.name
  | dec16 p => "DEC " ++ p.name
  | addHl p => "ADD HL," ++ p.name
  | addSp => "ADD SP,r8"
  | alu op src => op.mnemonic ++ src.name
  | aluImm op => op.mnemonic ++ "d8"
  | rlca => "RLCA"
  | rrca => "RRCA"
  | rla => "RLA"
  | rra => "RRA"
  | daa => "DAA"
  | cpl => "CPL"
  | scf => "SCF"
  | ccf => "CCF"
  | jr => "JR r8"
  | jrIf cc => "JR " ++ cc.name ++ ",r8"
  | jp => "JP a16"
  | jpIf cc => "JP " ++ cc.name ++ ",a16"
  | jpHl => "JP (HL)"
  | call => "CALL a16"
  | callIf cc => "CALL " ++ cc.name ++ ",a16"
  | ret => "RET"
  | retIf cc => "RET " ++ cc.name
  | reti => "RETI"
  | rst vector => "RST " ++ Hex.byte vector ++ "H"
  | push p => "PUSH " ++ p.name
  | pop p => "POP " ++ p.name
  | prefixCb => "PREFIX CB"
  | shift op x => op.name ++ " " ++ x.name
  | bit k x => "BIT " ++ bitName k ++ "," ++ x.name
  | res k x => "RES " ++ bitName k ++ "," ++ x.name
  | set k x => "SET " ++ bitName k ++ "," ++ x.name
  | invalid opcode => "INVALID $" ++ Hex.byte opcode

end Instruction

end EightBit.Sm83
