import EightBit.Sm83.Alu
import EightBit.Sm83.Cpu
import EightBit.Sm83.Decode

/-!
# Executing one instruction of the SM83

The effect of a decoded instruction on a board. Operands beyond the opcode are fetched here. The
base cost of an instruction belongs to its opcode; a conditional branch that is taken charges the
difference.

## Main definitions

* `Board.execute`: the effect of an instruction.
* `Board.jumpRelative`, `Board.jumpAbsolute`, `Board.callIf`, `Board.returnIf`: the four families
  of branches, each for a condition that is known to hold or not.
-/

namespace EightBit.Sm83

/-- What a taken conditional branch costs beyond the untaken one, for each family. -/
structure TakenCost where
  jr : Nat
  jp : Nat
  call : Nat
  ret : Nat

/-- Conditional jumps cost one machine cycle more when taken, calls and returns three. -/
def takenCost : TakenCost where
  jr := 4
  jp := 4
  call := 12
  ret := 12

namespace Board

variable {β : Type} [Bus β]

/-- The address of the last page's byte at an offset. -/
@[inline] def highAddress (offset : UInt8) : UInt16 :=
  0xFF00 ||| offset.toUInt16

/-! ### Branches -/

/-- Fetches a displacement, and jumps by it if `taken`. -/
def jumpRelative (s : Board β) (taken : Bool) : Board β :=
  let d := s.nextByte
  let s := s.skip
  if taken then s.jumpTo (s.cpu.regs.pc + displacement d) else s

/-- Fetches an address, and jumps there if `taken`. -/
def jumpAbsolute (s : Board β) (taken : Bool) : Board β :=
  let a := s.nextWord
  let s := s.skipWord
  if taken then s.jumpTo a else s

/-- Fetches an address, and calls it if `taken`: the address after the operand goes to the
stack. -/
def callIf (s : Board β) (taken : Bool) : Board β :=
  let a := s.nextWord
  let s := s.skipWord
  if taken then (s.push s.cpu.regs.pc).jumpTo a else s

/-- Returns to the address on the stack if `taken`. -/
def returnIf (s : Board β) (taken : Bool) : Board β :=
  if taken then s.drop.jumpTo s.stackTop else s

/-- Charges the cost of a taken branch if `taken`. -/
@[inline] def chargeIf (s : Board β) (taken : Bool) (n : Nat) : Board β :=
  if taken then s.charge n else s

/-! ### Control of the processor -/

/-- Stops the processor; the byte after the opcode is padding. -/
def stop (s : Board β) : Board β :=
  let s := s.skip
  { s with cpu := { s.cpu with stopped := true, halted := false } }

/-- Halts the processor. With interrupts disabled and one already pending it does not halt; instead
the next opcode fetch fails to advance the program counter. -/
def halt (s : Board β) : Board β :=
  if !s.cpu.ime && !(pendingInterrupts s.bus).isEmpty then
    { s with cpu := { s.cpu with haltBug := true } }
  else { s with cpu := { s.cpu with halted := true } }

/-- Disables interrupts at once. -/
def disableInterrupts (s : Board β) : Board β :=
  { s with cpu := { s.cpu with ime := false, schedule := .idle } }

/-- Enables interrupts at once. -/
def enableInterrupts (s : Board β) : Board β :=
  { s with cpu := { s.cpu with ime := true, schedule := .idle } }

/-- Enables interrupts after the next instruction. A further request inside that window does not
restart it. -/
def scheduleEnable (s : Board β) : Board β :=
  if !s.cpu.ime && s.cpu.schedule == .idle then
    { s with cpu := { s.cpu with schedule := .requested } }
  else s

/-- Counts an opcode without a meaning, which otherwise does nothing. -/
def ignoreInvalid (s : Board β) (opcode : UInt8) : Board β :=
  let r := s.cpu.regs
  { cpu := { s.cpu with invalidOpcodes := s.cpu.invalidOpcodes + 1 }
    bus := note (.sm83Invalid opcode s.cpu.instructionAddress r.sp r.af r.bc r.de r.hl) s.bus }

/-! ### The instruction set -/

/-- Replaces a byte operand by `f` of it, and sets the flags by `g` of the old value. -/
@[inline] def update (s : Board β) (x : Reg8) (f : Registers → UInt8 → UInt8)
    (g : Registers → UInt8 → Registers) : Board β :=
  let v := s.operand x
  let r := s.cpu.regs
  (s.mapRegs (g · v)).setOperand x (f r v)

/-- The effect of an instruction. -/
def execute (s : Board β) : Instruction → Board β
  | .nop => s
  | .stop => s.stop
  | .halt => s.halt
  | .di => s.disableInterrupts
  | .ei => s.scheduleEnable
  | .load dst src => s.setOperand dst (s.operand src)
  | .loadImm dst => s.skip.setOperand dst s.nextByte
  | .loadPairImm p => s.skipWord.mapRegs (·.setPair p s.nextWord)
  | .storeIndirect p => (s.mapRegs p.advance).store (p.address s.cpu.regs) s.cpu.regs.a
  | .loadIndirect p =>
    s.mapRegs fun r => { p.advance r with a := s.load (p.address r) }
  | .storeSp =>
    let sp := s.cpu.regs.sp
    let a := s.nextWord
    let s := s.skipWord
    { s with bus := writeWord s.bus a sp }
  | .storeHighImm => s.skip.store (highAddress s.nextByte) s.cpu.regs.a
  | .loadHighImm => s.skip.mapRegs ({ · with a := s.load (highAddress s.nextByte) })
  | .storeHighC => s.store (highAddress s.cpu.regs.c) s.cpu.regs.a
  | .loadHighC => s.mapRegs fun r => { r with a := s.load (highAddress r.c) }
  | .storeAbs => s.skipWord.store s.nextWord s.cpu.regs.a
  | .loadAbs => s.skipWord.mapRegs ({ · with a := s.load s.nextWord })
  | .loadSpHl => s.mapRegs fun r => { r with sp := r.hl }
  | .loadHlSp =>
    let d := s.nextByte
    s.skip.mapRegs fun r => (r.spOffsetFlags d).setHl (r.spOffset d)
  | .inc8 x => s.update x (fun _ v => v + 1) Registers.incFlags
  | .dec8 x => s.update x (fun _ v => v - 1) Registers.decFlags
  | .inc16 p => s.mapRegs fun r => r.setPair p (r.pair p + 1)
  | .dec16 p => s.mapRegs fun r => r.setPair p (r.pair p - 1)
  | .addHl p => s.mapRegs fun r => r.addHl (r.pair p)
  | .addSp =>
    let d := s.nextByte
    s.skip.mapRegs fun r => { r.spOffsetFlags d with sp := r.spOffset d }
  | .alu op src => s.mapRegs (·.alu op (s.operand src))
  | .aluImm op => s.skip.mapRegs (·.alu op s.nextByte)
  | .rlca => s.mapRegs (·.rotateA .rlc)
  | .rrca => s.mapRegs (·.rotateA .rrc)
  | .rla => s.mapRegs (·.rotateA .rl)
  | .rra => s.mapRegs (·.rotateA .rr)
  | .daa => s.mapRegs (·.decimalAdjust)
  | .cpl => s.mapRegs (·.complement)
  | .scf => s.mapRegs (·.setCarry)
  | .ccf => s.mapRegs (·.flipCarry)
  | .jr => s.jumpRelative true
  | .jrIf cc =>
    let taken := s.cpu.regs.holds cc
    (s.jumpRelative taken).chargeIf taken takenCost.jr
  | .jp => s.jumpAbsolute true
  | .jpIf cc =>
    let taken := s.cpu.regs.holds cc
    (s.jumpAbsolute taken).chargeIf taken takenCost.jp
  | .jpHl => s.jumpTo s.cpu.regs.hl
  | .call => s.callIf true
  | .callIf cc =>
    let taken := s.cpu.regs.holds cc
    (s.callIf taken).chargeIf taken takenCost.call
  | .ret => s.returnIf true
  | .retIf cc =>
    let taken := s.cpu.regs.holds cc
    (s.returnIf taken).chargeIf taken takenCost.ret
  | .reti => s.enableInterrupts.returnIf true
  | .rst vector => (s.push s.cpu.regs.pc).jumpTo vector.toUInt16
  | .push p => s.push (s.cpu.regs.pair p)
  | .pop p => s.drop.mapRegs (·.setPair p s.stackTop)
  | .prefixCb => s
  | .shift op x => s.update x (fun r v => r.shifted op v) (fun r v => r.shiftFlags op v)
  | .bit k x => s.mapRegs (·.bitFlags k (s.operand x))
  | .res k x => s.update x (fun _ v => v &&& ~~~bitMask k) (fun r _ => r)
  | .set k x => s.update x (fun _ v => v ||| bitMask k) (fun r _ => r)
  | .invalid opcode => s.ignoreInvalid opcode

end Board

end EightBit.Sm83
