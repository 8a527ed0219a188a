import EightBit.Z80.Step

/-!
# Accepting interrupts on the Z80

After each step the processor looks at its interrupt lines. A latched non-maskable interrupt always
wins. A maskable one is accepted when interrupts are enabled, the last step did not enable them,
and the line is high; where it leads to depends on the interrupt mode.

## Main definitions

* `Board.acceptNmi`, `Board.acceptInt`: the two entry sequences.
* `Board.handleInterrupts`: accepts an interrupt if one is due, and says what it took.
-/

namespace EightBit.Z80

/-- Where a non-maskable interrupt leads. -/
def nmiVector : UInt16 := 0x0066

/-- Where a maskable interrupt leads in mode 1. -/
def mode1Vector : UInt16 := 0x0038

/-- The T-cycles of accepting a non-maskable interrupt. -/
def nmiCycles : Nat := 11

/-- The T-cycles of accepting a maskable interrupt: in mode 2 the handler's address is fetched. -/
def intCycles (mode : UInt8) : Nat :=
  if mode = 2 then 19 else 13

namespace Board

variable {β : Type} [Bus β]

/-- Ends a halt, refreshes memory and saves the program counter. -/
def enter (s : Board β) : Board β :=
  let s := { s with cpu := { s.cpu with halted := false } }.mapRegs (·.refresh)
  s.push s.cpu.regs.pc

/-- Accepts a non-maskable interrupt. -/
def acceptNmi (s : Board β) : Board β :=
  let pc := s.cpu.regs.pc
  let s := s.enter.jumpTo nmiVector
  { cpu := { s.cpu with iff2 := s.cpu.iff1, iff1 := false }
    bus := note (.z80NonMaskable pc) s.bus }

/-- Whether a byte on the data lines is one of the restarts, which mode 0 can execute. -/
@[inline] def isRestart (data : UInt8) : Bool :=
  data &&& 0xC7 == 0xC7

/-- Where a maskable interrupt leads, as read after the program counter has been saved: in mode 2
to the address in the table entry that the device selects, in mode 1 to a fixed address, in mode 0
to the restart that the device supplies, or as in mode 1 if it supplies none. -/
def intVector (s : Board β) (data : UInt8) : UInt16 :=
  match s.cpu.im with
  | 2 => readWord s.bus (word s.cpu.regs.i (data &&& 0xFE))
  | 1 => mode1Vector
  | _ => if isRestart data then (data &&& 0x38).toUInt16 else mode1Vector

/-- Whether mode 0 is given a byte it cannot execute. -/
def isUnsupported (s : Board β) (data : UInt8) : Bool :=
  s.cpu.im != 2 && s.cpu.im != 1 && !isRestart data

/-- Accepts a maskable interrupt. -/
def acceptInt (s : Board β) : Board β :=
  let pc := s.cpu.regs.pc
  let (data, bus) := acknowledge s.bus
  let s := Board.enter { cpu := { s.cpu with iff1 := false, iff2 := false }, bus }
  let vector := s.intVector data
  let unsupported := s.isUnsupported data
  let s := s.jumpTo vector
  let bus := if unsupported then note (.z80NotRestart data) s.bus else s.bus
  { s with bus := note (.z80Maskable s.cpu.im vector pc) bus }

/-- Whether a maskable interrupt is accepted now. -/
@[inline] def acceptsInt (s : Board β) : Bool :=
  s.cpu.iff1 && !s.cpu.eiShadow && intLine s.bus

/-- Accepts an interrupt if one is due. The cycles are those of the entry sequence, or `none`. -/
def handleInterrupts (s : Board β) : Option Nat × Board β :=
  let (nmi, bus) := takeNmi s.bus
  let s := { s with bus := bus }
  if nmi then (some nmiCycles, s.acceptNmi)
  else if s.acceptsInt then (some (intCycles s.cpu.im), s.acceptInt)
  else (none, s)

end Board

end EightBit.Z80
