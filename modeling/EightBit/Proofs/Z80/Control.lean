import EightBit.Proofs.Z80.Costs
import EightBit.Proofs.Z80.Length
import EightBit.Z80.Interrupt

/-!
# The control state of a Z80

The two interrupt flip-flops, the interrupt mode, the idle state and the shadow of an `EI` decide
which interrupts are accepted and where they lead. They form a small machine of their own: what a
step does to them depends on the instruction alone, and what the interrupt logic does on the two
interrupt lines.

## Main definitions

* `Control`, `Cpu.control`: this state, and that of a processor.
* `Control.execute`, `Control.step`, `Control.interrupt`: the machine it forms.
* `Control.Remembers`: interrupts are enabled only if the second flip-flop says so, too.

## Main results

* `Board.control_execute`: an instruction acts as `Control.execute` says.
* `Board.control_step`, `Board.control_handleInterrupts`: so do a step and the interrupt logic.
* `Control.Remembers.step`, `Control.Remembers.interrupt`: the relation of the flip-flops is kept.
-/

namespace EightBit.Z80

/-- What decides which interrupts are accepted. -/
@[ext] structure Control where
  iff1 : Bool
  iff2 : Bool
  im : UInt8
  halted : Bool
  eiShadow : Bool
  deriving DecidableEq, Repr

/-- The control state of a processor. -/
def Cpu.control (cpu : Cpu) : Control where
  iff1 := cpu.iff1
  iff2 := cpu.iff2
  im := cpu.im
  halted := cpu.halted
  eiShadow := cpu.eiShadow

namespace Control

/-- The effect of an instruction. -/
def execute (k : Control) : Instruction → Control
  | .halt => { k with halted := true }
  | .di => { k with iff1 := false, iff2 := false }
  | .ei => { k with iff1 := true, iff2 := true, eiShadow := true }
  | .retn | .reti => { k with iff1 := k.iff2 }
  | .im mode => { k with im := mode }
  | _ => k

/-- A step with the instruction `i` at the program counter. -/
def step (k : Control) (i : Instruction) : Control :=
  if k.halted then { k with eiShadow := false } else { k with eiShadow := false }.execute i

/-- The interrupt logic, with the latch of non-maskable interrupts and the line of the maskable
ones. -/
def interrupt (k : Control) (nmi line : Bool) : Control :=
  if nmi then { k with iff1 := false, iff2 := k.iff1, halted := false }
  else if k.iff1 && !k.eiShadow && line then
    { k with iff1 := false, iff2 := false, halted := false }
  else k

/-- Interrupts are enabled only if the second flip-flop says so, too. -/
def Remembers (k : Control) : Prop :=
  k.iff1 = true → k.iff2 = true

end Control

namespace Board

/-! ### Parts of an instruction -/

section

variable {β : Type} (s : Board β)

@[simp] theorem control_mapRegs (f : Registers → Registers) :
    (s.mapRegs f).cpu.control = s.cpu.control := rfl

@[simp] theorem control_jumpTo (pc : UInt16) : (s.jumpTo pc).cpu.control = s.cpu.control := rfl

@[simp] theorem control_drop : s.drop.cpu.control = s.cpu.control := rfl

@[simp] theorem control_chargeIf (taken : Bool) (n : Nat) :
    (s.chargeIf taken n).cpu.control = s.cpu.control := by
  cases taken <;> rfl

/-- What only fetches leaves the control state alone. -/
theorem control_of_fetchedFrom {s t : Board β} (h : t.FetchedFrom s) :
    t.cpu.control = s.cpu.control := by
  obtain ⟨pc, r, bytes, m, a, rfl⟩ := h
  rfl

variable [Bus β]

@[simp] theorem control_skip : s.skip.cpu.control = s.cpu.control := rfl

@[simp] theorem control_skipWord : s.skipWord.cpu.control = s.cpu.control := rfl

@[simp] theorem control_push (w : UInt16) : (s.push w).cpu.control = s.cpu.control := rfl

@[simp] theorem control_aim (x : Reg8) : (s.aim x).cpu.control = s.cpu.control := by
  rw [aim]
  split <;> rfl

@[simp] theorem control_setOperandIn (m : IndexMode) (x : Reg8) (v : UInt8) :
    (s.setOperandIn m x v).cpu.control = s.cpu.control := by
  cases x <;> rfl

@[simp] theorem control_update (x : Reg8) (f : Registers → UInt8 → UInt8)
    (g : Registers → UInt8 → Registers) : (s.update x f g).cpu.control = s.cpu.control :=
  (control_setOperandIn _ _ x _).trans (s.control_aim x)

@[simp] theorem control_updateIndexed (copy : Option Reg8) (f : Registers → UInt8 → UInt8)
    (g : Registers → UInt8 → Registers) :
    (s.updateIndexed copy f g).cpu.control = s.cpu.control := by
  cases copy with
  | none => rfl
  | some x => exact control_setOperandIn _ _ x _

@[simp] theorem control_inputByC (dst : Option Reg8) :
    (s.inputByC dst).cpu.control = s.cpu.control := by
  cases dst with
  | none => rfl
  | some x => exact control_setOperandIn _ _ x _

@[simp] theorem control_jumpRelative (taken : Bool) :
    (s.jumpRelative taken).cpu.control = s.cpu.control := by
  cases taken <;> rfl

@[simp] theorem control_jumpAbsolute (taken : Bool) :
    (s.jumpAbsolute taken).cpu.control = s.cpu.control := by
  cases taken <;> rfl

@[simp] theorem control_callIf (taken : Bool) :
    (s.callIf taken).cpu.control = s.cpu.control := by
  rw [← s.control_skipWord]
  cases taken <;> rfl

@[simp] theorem control_returnIf (taken : Bool) :
    (s.returnIf taken).cpu.control = s.cpu.control := by
  cases taken <;> rfl

@[simp] theorem control_blockByte (op : BlockOp) (increment : Bool) :
    (s.blockByte op increment).2.cpu.control = s.cpu.control := by
  cases op <;> rfl

@[simp] theorem control_block (op : BlockOp) (increment repeats : Bool) :
    (s.block op increment repeats).cpu.control = s.cpu.control := by
  rw [block_eq, ← s.control_blockByte op increment]
  dsimp only
  split <;> rfl

/-! ### Instructions and steps -/

/-- An instruction acts on the control state as the control machine says. -/
theorem control_execute (i : Instruction) :
    (s.execute i).cpu.control = s.cpu.control.execute i := by
  cases i with
  -- Operands that may be in memory
  | load dst src =>
    exact (control_setOperandIn _ _ dst _).trans ((control_aim _ src).trans (s.control_aim dst))
  | loadImm x => exact (control_setOperandIn _ _ x _).trans (s.control_aim x)
  | inc8 x | dec8 x | shift _ x | res _ x | set _ x => exact s.control_update x _ _
  | alu _ x | bit _ x => exact s.control_aim x
  | indexShift _ copy | indexRes _ copy | indexSet _ copy => exact s.control_updateIndexed copy _ _
  -- Transfers of control
  | djnz | jrIf _ | jpIf _ | callIf _ | retIf _ => simp [execute, Control.execute]
  | call => exact s.control_callIf true
  -- Devices
  | inC dst => exact s.control_inputByC dst
  | block op increment repeats => exact s.control_block op increment repeats
  | _ => rfl

/-- So does a step. -/
theorem control_step : s.step.board.cpu.control = s.cpu.control.step s.found.instruction := by
  rcases Bool.eq_false_or_eq_true s.cpu.halted with hhalted | hrun
  · rw [step_of_halted hhalted]
    exact (if_pos hhalted).symm
  · have hfound : s.found.board.cpu.control = s.started.begin.cpu.control :=
      control_of_fetchedFrom s.started.begin.fetchedFrom_decoded
    calc s.step.board.cpu.control
        = (s.found.board.execute s.found.instruction).cpu.control := by
          rw [step_eq_execute hrun]
          rfl
      _ = s.started.begin.cpu.control.execute s.found.instruction := by
          rw [control_execute, hfound]
      _ = s.cpu.control.step s.found.instruction := (if_neg (Bool.eq_false_iff.1 hrun)).symm

/-- So does the interrupt logic. -/
theorem control_handleInterrupts :
    s.handleInterrupts.2.cpu.control =
      s.cpu.control.interrupt (takeNmi s.bus).1 (intLine (takeNmi s.bus).2) := by
  have haccepts : ({ s with bus := (takeNmi s.bus).2 } : Board β).acceptsInt =
      (s.cpu.control.iff1 && !s.cpu.control.eiShadow && intLine (takeNmi s.bus).2) := rfl
  unfold handleInterrupts Control.interrupt
  dsimp only
  rw [haccepts]
  split
  · rfl
  · split <;> rfl

end

end Board

/-! ### The flip-flops -/

namespace Control.Remembers

variable {k : Control}

theorem execute (h : k.Remembers) (i : Instruction) : (k.execute i).Remembers := by
  cases i with
  | di | ei | retn | reti => simp [Control.Remembers, Control.execute]
  | _ => exact h

theorem step (h : k.Remembers) (i : Instruction) : (k.step i).Remembers := by
  rw [Control.step]
  split
  · exact h
  · exact execute (k := { k with eiShadow := false }) h i

/-- Accepting an interrupt disables further ones. -/
theorem interrupt (h : k.Remembers) (nmi line : Bool) : (k.interrupt nmi line).Remembers := by
  rw [Control.interrupt]
  split
  · exact fun hoff => absurd hoff nofun
  · split
    · exact fun hoff => absurd hoff nofun
    · exact h

end Control.Remembers

end EightBit.Z80
