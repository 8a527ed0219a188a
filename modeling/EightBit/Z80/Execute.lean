import EightBit.Z80.Block
import EightBit.Z80.Decode

/-!
# Executing one instruction of the Z80

The effect of a decoded instruction on a board. Prefixes have been consumed by the decoder, and so
have the displacements of the indexed shifts and bit operations; other operands beyond the opcode
are fetched here. The base cost of an instruction belongs to its opcode; a conditional branch that
is taken charges the difference.

## Main definitions

* `Board.execute`: the effect of an instruction.
* `Board.jumpRelative`, `Board.jumpAbsolute`, `Board.callIf`, `Board.returnIf`: the four families
  of branches, each for a condition that is known to hold or not.
-/

namespace EightBit.Z80

/-- What a taken conditional branch costs beyond the untaken one, for each family. -/
structure TakenCost where
  jr : Nat
  djnz : Nat
  jp : Nat
  call : Nat
  ret : Nat

/-- A jump to an address that is fetched anyway costs nothing more. -/
def takenCost : TakenCost where
  jr := 5
  djnz := 5
  jp := 0
  call := 7
  ret := 6

namespace Board

variable {β : Type} [Bus β]

/-! ### Branches -/

/-- Fetches a displacement, and jumps by it if `taken`. -/
def jumpRelative (s : Board β) (taken : Bool) : Board β :=
  let d := s.nextByte
  let s := s.skip
  if taken then s.jumpTo (s.cpu.regs.pc + displacement d) else s

/-- Fetches an address, and jumps there if `taken`. -/
def jumpAbsolute (s : Board β) (taken : Bool) : Board β :=
  let a := s.nextWord
  let s := s.skipWord
  if taken then s.jumpTo a else s

/-- Fetches an address, and calls it if `taken`: the address after the operand goes to the
stack. -/
def callIf (s : Board β) (taken : Bool) : Board β :=
  let a := s.nextWord
  let s := s.skipWord
  if taken then (s.push s.cpu.regs.pc).jumpTo a else s

/-- Returns to the address on the stack if `taken`. -/
def returnIf (s : Board β) (taken : Bool) : Board β :=
  if taken then s.drop.jumpTo s.stackTop else s

/-- Charges the cost of a taken branch if `taken`. -/
@[inline] def chargeIf (s : Board β) (taken : Bool) (n : Nat) : Board β :=
  if taken then s.charge n else s

/-! ### Control of the processor -/

/-- Halts the processor until an interrupt is accepted. -/
def halt (s : Board β) : Board β :=
  { s with cpu := { s.cpu with halted := true } }

/-- Disables maskable interrupts. -/
def disableInterrupts (s : Board β) : Board β :=
  { s with cpu := { s.cpu with iff1 := false, iff2 := false } }

/-- Enables maskable interrupts; one is accepted after the next step at the earliest. -/
def enableInterrupts (s : Board β) : Board β :=
  { s with cpu := { s.cpu with iff1 := true, iff2 := true, eiShadow := true } }

/-- Returns from an interrupt handler, with the interrupt enable that was saved. -/
def returnFromInterrupt (s : Board β) : Board β :=
  { s with cpu := { s.cpu with iff1 := s.cpu.iff2 } }.returnIf true

/-- Counts an opcode without a meaning, which otherwise does nothing. -/
def ignoreInvalid (s : Board β) (opcode : UInt8) : Board β :=
  let cpu := s.cpu
  let r := cpu.regs
  { cpu := { cpu with invalidOpcodes := cpu.invalidOpcodes + 1 }
    bus := note (.z80Invalid opcode cpu.instructionAddress cpu.fetched.toList
      r.af r.bc r.de r.hl r.sp) s.bus }

/-! ### Words, digits and devices -/

/-- Stores a register pair at an immediate address. -/
def storeWord (s : Board β) (p : Pair) : Board β :=
  let a := s.nextWord
  let w := s.pairValue p
  let s := s.skipWord
  { s with bus := writeWord s.bus a w }

/-- Loads a register pair from an immediate address. -/
def loadWord (s : Board β) (p : Pair) : Board β :=
  let w := readWord s.bus s.nextWord
  s.skipWord.setPairValue p w

/-- Exchanges the register that stands for `HL` with the word on top of the stack. -/
def exchangeStackTop (s : Board β) : Board β :=
  let sp := s.cpu.regs.sp
  let top := s.stackTop
  let w := s.indexValue
  let s := { s with bus := writeWord s.bus sp w }
  s.mapRegs (·.setIndex s.cpu.mode top)

/-- Rotates three digits to the right: the low one of the accumulator and the two at `HL`. -/
def rotateDigitsRight (s : Board β) : Board β :=
  let r := s.cpu.regs
  let v := s.load r.hl
  (s.store r.hl ((r.a <<< 4) ||| (v >>> 4))).mapRegs fun r =>
    Registers.digitFlags { r with a := (r.a &&& 0xF0) ||| (v &&& 0x0F) }

/-- Rotates three digits to the left: the low one of the accumulator and the two at `HL`. -/
def rotateDigitsLeft (s : Board β) : Board β :=
  let r := s.cpu.regs
  let v := s.load r.hl
  (s.store r.hl ((v <<< 4) ||| (r.a &&& 0x0F))).mapRegs fun r =>
    Registers.digitFlags { r with a := (v >>> 4) ||| (r.a &&& 0xF0) }

/-- Gives the accumulator, which is also the upper half of the address, to a device. -/
def outputA (s : Board β) : Board β :=
  let a := s.cpu.regs.a
  let device := word a s.nextByte
  let s := s.skip
  { s with bus := portOut s.bus device a }

/-- Takes the accumulator, which is also the upper half of the address, from a device. -/
def inputA (s : Board β) : Board β :=
  let device := word s.cpu.regs.a s.nextByte
  let s := s.skip
  let (v, bus) := portIn s.bus device
  { s with bus := bus }.mapRegs ({ · with a := v })

/-- Takes a byte from the device in `BC` to a register, or only for its flags. -/
def inputByC (s : Board β) (dst : Option Reg8) : Board β :=
  let (v, bus) := portIn s.bus s.cpu.regs.bc
  let s := { s with bus := bus }.mapRegs (·.inputFlags v)
  match dst with
  | some x => s.setOperandIn .hl x v
  | none => s

/-- Gives a register, or zero, to the device in `BC`. -/
def outputByC (s : Board β) (src : Option Reg8) : Board β :=
  let v :=
    match src with
    | some x => s.operandIn .hl x
    | none => 0
  { s with bus := portOut s.bus s.cpu.regs.bc v }

/-! ### Operands that are read and written back -/

/-- Replaces a byte operand by `f` of it, and sets the flags by `g` of the old value. -/
@[inline] def update (s : Board β) (x : Reg8) (f : Registers → UInt8 → UInt8)
    (g : Registers → UInt8 → Registers) : Board β :=
  let s := s.aim x
  let v := s.operand x
  let r := s.cpu.regs
  (s.mapRegs (g · v)).setOperand x (f r v)

/-- Replaces the indexed byte by `f` of it, sets the flags by `g` of the old value, and copies the
result to a register. -/
@[inline] def updateIndexed (s : Board β) (copy : Option Reg8)
    (f : Registers → UInt8 → UInt8) (g : Registers → UInt8 → Registers) : Board β :=
  let v := s.load s.pointer
  let w := f s.cpu.regs v
  let s := (s.mapRegs (g · v)).store s.pointer w
  match copy with
  | some x => s.setOperandIn .hl x w
  | none => s

/-- Which register has the halves `H` and `L` in a load: beside a memory operand they are those of
`HL`. -/
@[inline] def loadMode (s : Board β) (dst src : Reg8) : IndexMode :=
  if dst.isIndirect || src.isIndirect then .hl else s.cpu.mode

/-! ### The instruction set -/

/-- The effect of an instruction. -/
def execute (s : Board β) : Instruction → Board β
  | .nop => s
  | .halt => s.halt
  | .di => s.disableInterrupts
  | .ei => s.enableInterrupts
  | .load dst src =>
    let m := s.loadMode dst src
    let s := (s.aim dst).aim src
    s.setOperandIn m dst (s.operandIn m src)
  | .loadImm dst =>
    let s := s.aim dst
    s.skip.setOperand dst s.nextByte
  | .loadPairImm p => s.skipWord.setPairValue p s.nextWord
  | .storeBc => s.store s.cpu.regs.bc s.cpu.regs.a
  | .storeDe => s.store s.cpu.regs.de s.cpu.regs.a
  | .loadBc => s.mapRegs fun r => { r with a := s.load r.bc }
  | .loadDe => s.mapRegs fun r => { r with a := s.load r.de }
  | .storeAbs => s.skipWord.store s.nextWord s.cpu.regs.a
  | .loadAbs => s.skipWord.mapRegs ({ · with a := s.load s.nextWord })
  | .storeHlAbs => s.storeWord .hl
  | .loadHlAbs => s.loadWord .hl
  | .loadSpHl => s.mapRegs ({ · with sp := s.indexValue })
  | .exAf => s.mapRegs (·.exchangeAf)
  | .exx => s.mapRegs (·.exchangeAll)
  | .exDeHl => s.mapRegs fun r => (r.setDe r.hl).setHl r.de
  | .exSpHl => s.exchangeStackTop
  | .inc8 x => s.update x (fun _ v => v + 1) Registers.incFlags
  | .dec8 x => s.update x (fun _ v => v - 1) Registers.decFlags
  | .inc16 p => s.setPairValue p (s.pairValue p + 1)
  | .dec16 p => s.setPairValue p (s.pairValue p - 1)
  | .addHl p => s.mapRegs (·.addIndex s.cpu.mode (s.pairValue p))
  | .alu op src =>
    let s := s.aim src
    s.mapRegs (·.alu op (s.operand src))
  | .aluImm op => s.skip.mapRegs (·.alu op s.nextByte)
  | .rlca => s.mapRegs (·.rotateA .rlc)
  | .rrca => s.mapRegs (·.rotateA .rrc)
  | .rla => s.mapRegs (·.rotateA .rl)
  | .rra => s.mapRegs (·.rotateA .rr)
  | .daa => s.mapRegs (·.decimalAdjust)
  | .cpl => s.mapRegs (·.complement)
  | .scf => s.mapRegs (·.setCarry)
  | .ccf => s.mapRegs (·.flipCarry)
  | .djnz =>
    let s := s.mapRegs fun r => { r with b := r.b - 1 }
    let taken := s.cpu.regs.b != 0
    (s.jumpRelative taken).chargeIf taken takenCost.djnz
  | .jr => s.jumpRelative true
  | .jrIf cc =>
    let taken := s.cpu.regs.holds cc
    (s.jumpRelative taken).chargeIf taken takenCost.jr
  | .jp => s.jumpAbsolute true
  | .jpIf cc =>
    let taken := s.cpu.regs.holds cc
    (s.jumpAbsolute taken).chargeIf taken takenCost.jp
  | .jpHl => s.jumpTo s.indexValue
  | .call => s.callIf true
  | .callIf cc =>
    let taken := s.cpu.regs.holds cc
    (s.callIf taken).chargeIf taken takenCost.call
  | .ret => s.returnIf true
  | .retIf cc =>
    let taken := s.cpu.regs.holds cc
    (s.returnIf taken).chargeIf taken takenCost.ret
  | .rst vector => (s.push s.cpu.regs.pc).jumpTo vector.toUInt16
  | .push p => s.push (s.pairValue p)
  | .pop p => s.drop.setPairValue p s.stackTop
  | .outImm => s.outputA
  | .inImm => s.inputA
  | .prefixCb | .prefixEd | .prefixIx | .prefixIy | .prefixIndexCb => s
  | .shift op x => s.update x (fun r v => r.shifted op v) (fun r v => r.shiftFlags op v)
  | .bit k x =>
    let s := s.aim x
    s.mapRegs (·.bitFlags k (s.operand x))
  | .res k x => s.update x (fun _ v => v &&& ~~~bitMask k) (fun r _ => r)
  | .set k x => s.update x (fun _ v => v ||| bitMask k) (fun r _ => r)
  | .indexShift op copy =>
    s.updateIndexed copy (fun r v => r.shifted op v) (fun r v => r.shiftFlags op v)
  | .indexBit k => s.mapRegs (·.bitFlags k (s.load s.pointer))
  | .indexRes k copy => s.updateIndexed copy (fun _ v => v &&& ~~~bitMask k) (fun r _ => r)
  | .indexSet k copy => s.updateIndexed copy (fun _ v => v ||| bitMask k) (fun r _ => r)
  | .inC dst => s.inputByC dst
  | .outC src => s.outputByC src
  | .sbcHl p => s.mapRegs fun r => r.subWithCarry (r.pair p)
  | .adcHl p => s.mapRegs fun r => r.addWithCarry (r.pair p)
  | .storePairAbs p => s.storeWord p
  | .loadPairAbs p => s.loadWord p
  | .neg => s.mapRegs (·.negate)
  | .retn | .reti => s.returnFromInterrupt
  | .im mode => { s with cpu := { s.cpu with im := mode } }
  | .loadIA => s.mapRegs fun r => { r with i := r.a }
  | .loadRA => s.mapRegs fun r => { r with r := r.a }
  | .loadAI => s.mapRegs fun r => r.loadSpecial r.i s.cpu.iff2
  | .loadAR => s.mapRegs fun r => r.loadSpecial r.r s.cpu.iff2
  | .rrd => s.rotateDigitsRight
  | .rld => s.rotateDigitsLeft
  | .block op increment repeats => s.block op increment repeats
  | .invalid opcode => s.ignoreInvalid opcode

end Board

end EightBit.Z80
