import EightBit.Text.Hex
import EightBit.Z80.Registers

/-!
# Instructions of the Z80

An instruction names what to do and with which operands. Immediate operands and displacements are
not part of it: they are fetched while it executes. Operands that name `HL`, its halves or the
memory it points to are redirected by an index prefix when the instruction executes, and so is
their spelling.

## Main definitions

* `BlockOp`, `Instruction`: the instruction set.
* `Instruction.mnemonic`: its assembler text under an index mode.
-/

namespace EightBit.Z80

/-- What a block instruction does with each byte. -/
inductive BlockOp
  /-- Copies it. -/
  | load
  /-- Compares it with the accumulator. -/
  | compare
  /-- Takes it from a device. -/
  | input
  /-- Gives it to a device. -/
  | output
  deriving DecidableEq, Repr

/-- The name of a block instruction, by its direction and whether it repeats. -/
def BlockOp.name : BlockOp → (increment repeats : Bool) → String
  | .load, true, false => "LDI"
  | .load, false, false => "LDD"
  | .load, true, true => "LDIR"
  | .load, false, true => "LDDR"
  | .compare, true, false => "CPI"
  | .compare, false, false => "CPD"
  | .compare, true, true => "CPIR"
  | .compare, false, true => "CPDR"
  | .input, true, false => "INI"
  | .input, false, false => "IND"
  | .input, true, true => "INIR"
  | .input, false, true => "INDR"
  | .output, true, false => "OUTI"
  | .output, false, false => "OUTD"
  | .output, true, true => "OTIR"
  | .output, false, true => "OTDR"

/-- An instruction. -/
inductive Instruction
  | nop
  | halt
  | di
  | ei
  /-- Copies one byte operand to another. -/
  | load (dst src : Reg8)
  /-- Loads an immediate byte. -/
  | loadImm (dst : Reg8)
  /-- Loads an immediate word. -/
  | loadPairImm (dst : Pair)
  | storeBc
  | storeDe
  | loadBc
  | loadDe
  /-- Stores the accumulator at an immediate address. -/
  | storeAbs
  /-- Loads the accumulator from an immediate address. -/
  | loadAbs
  /-- Stores `HL` at an immediate address. -/
  | storeHlAbs
  /-- Loads `HL` from an immediate address. -/
  | loadHlAbs
  | loadSpHl
  | exAf
  | exx
  | exDeHl
  /-- Exchanges `HL` with the word on top of the stack. -/
  | exSpHl
  | inc8 (x : Reg8)
  | dec8 (x : Reg8)
  | inc16 (p : Pair)
  | dec16 (p : Pair)
  /-- Adds a pair to `HL`. -/
  | addHl (p : Pair)
  /-- Combines the accumulator with a byte operand. -/
  | alu (op : AluOp) (src : Reg8)
  /-- Combines the accumulator with an immediate byte. -/
  | aluImm (op : AluOp)
  | rlca
  | rrca
  | rla
  | rra
  | daa
  | cpl
  | scf
  | ccf
  | djnz
  | jr
  | jrIf (cc : Cond)
  | jp
  | jpIf (cc : Cond)
  | jpHl
  | call
  | callIf (cc : Cond)
  | ret
  | retIf (cc : Cond)
  /-- Calls one of the fixed addresses in the first page. -/
  | rst (vector : UInt8)
  | push (p : Pair)
  | pop (p : Pair)
  /-- Gives the accumulator to the device at an immediate address. -/
  | outImm
  /-- Takes the accumulator from the device at an immediate address. -/
  | inImm
  /-- The prefix of the page of shifts and bit operations. -/
  | prefixCb
  /-- The prefix of the page of extended operations. -/
  | prefixEd
  | prefixIx
  | prefixIy
  /-- The prefix of the page of shifts and bit operations, after an index prefix: a displacement
  and the opcode follow. -/
  | prefixIndexCb
  | shift (op : ShiftOp) (x : Reg8)
  | bit (k : UInt8) (x : Reg8)
  | res (k : UInt8) (x : Reg8)
  | set (k : UInt8) (x : Reg8)
  /-- A shift of an indexed byte, whose result `copy` also receives. -/
  | indexShift (op : ShiftOp) (copy : Option Reg8)
  | indexBit (k : UInt8)
  | indexRes (k : UInt8) (copy : Option Reg8)
  | indexSet (k : UInt8) (copy : Option Reg8)
  /-- Takes a byte from the device in `BC`; `none` only sets flags. -/
  | inC (dst : Option Reg8)
  /-- Gives a byte to the device in `BC`; `none` gives zero. -/
  | outC (src : Option Reg8)
  | sbcHl (p : Pair)
  | adcHl (p : Pair)
  /-- Stores a pair at an immediate address. -/
  | storePairAbs (p : Pair)
  /-- Loads a pair from an immediate address. -/
  | loadPairAbs (p : Pair)
  | neg
  | retn
  | reti
  /-- Selects an interrupt mode. -/
  | im (mode : UInt8)
  | loadIA
  | loadRA
  | loadAI
  | loadAR
  | rrd
  | rld
  | block (op : BlockOp) (increment repeats : Bool)
  /-- An opcode without a meaning. -/
  | invalid (opcode : UInt8)
  deriving DecidableEq, Repr

namespace Instruction

/-- A number as an assembler writes it. -/
def numberName (k : UInt8) : String :=
  toString k.toNat

/-- The register that also receives a result, as an assembler writes it. -/
def copyName : Option Reg8 → String
  | some x => "," ++ x.name
  | none => ""

/-- The instruction as an assembler writes it under an index mode, with immediate operands named by
their kind. -/
def mnemonic (m : IndexMode) : Instruction → String
  | nop => "NOP"
  | halt => "HALT"
  | di => "DI"
  | ei => "EI"
  | load dst src =>
    let plain := dst.isIndirect || src.isIndirect
    "LD " ++ m.operandName plain dst ++ "," ++ m.operandName plain src
  | loadImm dst => "LD " ++ m.operandName false dst ++ ",n"
  | loadPairImm dst => "LD " ++ m.pairName dst ++ ",nn"
  | storeBc => "LD (BC),A"
  | storeDe => "LD (DE),A"
  | loadBc => "LD A,(BC)"
  | loadDe => "LD A,(DE)"
  | storeAbs => "LD (nn),A"
  | loadAbs => "LD A,(nn)"
  | storeHlAbs => "LD (nn)," ++ m.name
  | loadHlAbs => "LD " ++ m.name ++ ",(nn)"
  | loadSpHl => "LD SP," ++ m.name
  | exAf => "EX AF,AF'"
  | exx => "EXX"
  | exDeHl => "EX DE,HL"
  | exSpHl => "EX (SP)," ++ m.name
  | inc8 x => "INC " ++ m.operandName false x
  | dec8 x => "DEC " ++ m.operandName false x
  | inc16 p => "INC " ++ m.pairName p
  | dec16 p => "DEC " ++ m.pairName p
  | addHl p => "ADD " ++ m.name ++ "," ++ m.pairName p
  | alu op src => op.mnemonic ++ m.operandName false src
  | aluImm op => op.mnemonic ++ "n"
  | rlca => "RLCA"
  | rrca => "RRCA"
  | rla => "RLA"
  | rra => "RRA"
  | daa => "DAA"
  | cpl => "CPL"
  | scf => "SCF"
  | ccf => "CCF"
  | djnz => "DJNZ e"
  | jr => "JR e"
  | jrIf cc => "JR " ++ cc.name ++ ",e"
  | jp => "JP nn"
  | jpIf cc => "JP " ++ cc.name ++ ",nn"
  | jpHl => "JP (" ++ m.name ++ ")"
  | call => "CALL nn"
  | callIf cc => "CALL " ++ cc.name ++ ",nn"
  | ret => "RET"
  | retIf cc => "RET " ++ cc.name
  | rst vector => "RST " ++ Hex.byte vector ++ "H"
  | push p => "PUSH " ++ m.pairName p
  | pop p => "POP " ++ m.pairName p
  | outImm => "OUT (n),A"
  | inImm => "IN A,(n)"
  | prefixCb => "PREFIX CB"
  | prefixEd => "PREFIX ED"
  | prefixIx => "PREFIX DD"
  | prefixIy => "PREFIX FD"
  | prefixIndexCb => "PREFIX CB"
  | shift op x => op.name ++ " " ++ m.operandName false x
  | bit k x => "BIT " ++ numberName k ++ "," ++ m.operandName false x
  | res k x => "RES " ++ numberName k ++ "," ++ m.operandName false x
  | set k x => "SET " ++ numberName k ++ "," ++ m.operandName false x
  | indexShift op copy => op.name ++ " " ++ m.memoryName ++ copyName copy
  | indexBit k => "BIT " ++ numberName k ++ "," ++ m.memoryName
  | indexRes k copy => "RES " ++ numberName k ++ "," ++ m.memoryName ++ copyName copy
  | indexSet k copy => "SET " ++ numberName k ++ "," ++ m.memoryName ++ copyName copy
  | inC (some x) => "IN " ++ x.name ++ ",(C)"
  | inC none => "IN (C)"
  | outC (some x) => "OUT (C)," ++ x.name
  | outC none => "OUT (C),0"
  | sbcHl p => "SBC HL," ++ p.name
  | adcHl p => "ADC HL," ++ p.name
  | storePairAbs p => "LD (nn)," ++ p.name
  | loadPairAbs p => "LD " ++ p.name ++ ",(nn)"
  | neg => "NEG"
  | retn => "RETN"
  | reti => "RETI"
  | im mode => "IM " ++ numberName mode
  | loadIA => "LD I,A"
  | loadRA => "LD R,A"
  | loadAI => "LD A,I"
  | loadAR => "LD A,R"
  | rrd => "RRD"
  | rld => "RLD"
  | block op increment repeats => op.name increment repeats
  | invalid opcode => "INVALID $" ++ Hex.byte opcode

end Instruction

end EightBit.Z80
