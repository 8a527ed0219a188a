import EightBit.Sm83.Step

/-!
# Taking interrupts on the SM83

After each step the processor looks for interrupts that are requested and enabled. Any of them ends
a halt; with the master enable set, the most urgent one is taken: the program counter goes to the
stack, the request is withdrawn and the handler begins.

The choice is made between the two bytes of the push. The upper byte may land in the enable
register, and then decides which interrupt is taken, or that none is, in which case the program
counter becomes zero. The lower byte comes too late to decide anything.

## Main definitions

* `Board.wake`: whether a dispatch begins, and the board that is woken in any case.
* `Board.dispatch`: the dispatch itself.
* `Board.handleInterrupts`: both together, with the cycles spent.
-/

namespace EightBit.Sm83

/-- The T-cycles of a dispatch. -/
def dispatchCycles : Nat := 20

namespace Board

variable {β : Type} [Bus β]

/-- Whether a dispatch begins, and the board after waking. A stopped processor only hears the
joypad. A halted one wakes for any pending interrupt, and without the master enable does no
more. -/
def wake (s : Board β) : Bool × Board β :=
  let pending := pendingInterrupts s.bus
  if pending.isEmpty then (false, s)
  else if s.cpu.stopped && !pending.contains .joypad then (false, s)
  else
    let cpu := { s.cpu with stopped := false }
    if cpu.ime then (true, { s with cpu := cpu })
    else (false, { s with cpu := { cpu with halted := false } })

/-- The most urgent pending interrupt, and the request register without it. -/
def selection? (bus : β) : Option (InterruptSource × UInt8) :=
  (pendingInterrupts bus).highest?.map fun source =>
    (source, read bus requestAddress &&& ~~~source.mask)

/-- Pushes the program counter and goes to the handler of the interrupt selected between the two
bytes of the push. The request register is written last, from its value at the selection. -/
def dispatch (s : Board β) : Board β :=
  let pc := s.cpu.regs.pc
  let sp := s.cpu.regs.sp
  let cpu := { s.cpu with
    ime := false
    schedule := .idle
    halted := false
    regs := { s.cpu.regs with sp := sp - 2 } }
  let bus := write s.bus (sp - 1) (hiByte pc)
  let selected := selection? bus
  let bus := write bus (sp - 2) (loByte pc)
  match selected with
  | some (source, requests) =>
    let bus := note (.sm83Interrupt source source.vector pc (sp - 2)) bus
    { cpu := { cpu with regs := { cpu.regs with pc := source.vector } }
      bus := write bus requestAddress requests }
  | none => { cpu := { cpu with regs := { cpu.regs with pc := 0 } }, bus }

/-- Takes an interrupt if one is due. The cycles are those of the dispatch, or `none`. -/
def handleInterrupts (s : Board β) : Option Nat × Board β :=
  match s.wake with
  | (true, s) => (some dispatchCycles, s.dispatch)
  | (false, s) => (none, s)

end Board

end EightBit.Sm83
