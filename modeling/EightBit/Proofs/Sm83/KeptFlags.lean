import EightBit.Proofs.Sm83.EnableDelay
import EightBit.Proofs.Sm83.Flags
import EightBit.Proofs.Sm83.UnusedFlags

/-!
# The flags that an instruction of the SM83 keeps

Arithmetic on bytes reports to every flag, and increments, additions to `HL` and bit tests keep some
of them. What is no arithmetic keeps the whole flag register, unless it takes the pair `AF` off the
stack.

## Main definitions

* `Instruction.keptFlags`: the flags that an instruction keeps.
* `Board.KeepsFlags`: what steps and interrupts do to the flags.

## Main results

* `Board.agreeOn_execute`: instruction by instruction.
* `Board.keepsFlags`: the same for the step.
-/

namespace EightBit.Sm83

namespace Instruction

/-- The flags that an instruction keeps, as bits of the flag register. -/
def keptFlags : Instruction → UInt8
  | inc8 _ | dec8 _ | bit .. => Flag.c.mask
  | addHl _ | scf | ccf => Flag.z.mask
  | daa => Flag.n.mask
  | cpl => ~~~(Flag.n.mask ||| Flag.h.mask)
  -- These report to every flag, or load the flag register.
  | alu .. | aluImm _ | shift .. | rlca | rrca | rla | rra | addSp | loadHlSp | pop .af => 0
  | _ => 0xFF

/-- Whether an instruction would load the pair `AF` as if it were a word, which no opcode says. -/
def loadsAf : Instruction → Bool
  | loadPairImm .af | inc16 .af | dec16 .af => true
  | _ => false

end Instruction

namespace Decode

theorem loadsAf_primary : ∀ op, (primary op).instruction.loadsAf = false :=
  forall_byte (by decide)

theorem loadsAf_cb : ∀ op, (cb op).instruction.loadsAf = false :=
  forall_byte (by decide)

end Decode

/-! ### Flags -/

namespace Registers

variable {q r : Registers} {m : UInt8}

/-- A flag that is what it was. -/
theorem agreeOn_of_flag_eq {x : Flag} (h : q.flag x = r.flag x) : AgreeOn x.mask q.f r.f := by
  refine ext_hasBit fun k => ?_
  rw [hasBit_and, hasBit_and]
  by_cases hk : k = x.bit
  · rw [hk, ← flag_eq_hasBit, ← flag_eq_hasBit, h]
  · have hclear : hasBit x.mask k = false := by
      refine Bool.eq_false_iff.2 fun hset => hk ?_
      rwa [x.hasBit_mask_iff k (lt_of_hasBit hset), decide_eq_true_eq] at hset
    rw [hclear, Bool.and_false, Bool.and_false]

/-- Setting a flag keeps the others. -/
theorem agreeOn_setFlag (hq : AgreeOn m q.f r.f) {x : Flag} (on : Bool) (h : x.mask &&& m = 0) :
    AgreeOn m (q.setFlag x on).f r.f := by
  refine AgreeOn.trans ?_ hq
  cases on with
  | true =>
    change (q.f ||| x.mask) &&& m = q.f &&& m
    rw [or_and_mask, h, UInt8.or_zero]
  | false =>
    have hout : AgreeOn (~~~x.mask) (q.f &&& ~~~x.mask) q.f := by
      rw [AgreeOn, UInt8.and_assoc, UInt8.and_self]
    exact hout.of_not h

theorem agreeOn_incFlags (r : Registers) (v : UInt8) : AgreeOn Flag.c.mask (r.incFlags v).f r.f :=
  agreeOn_of_flag_eq (flag_of_flagByte _ rfl .c)

theorem agreeOn_decFlags (r : Registers) (v : UInt8) : AgreeOn Flag.c.mask (r.decFlags v).f r.f :=
  agreeOn_of_flag_eq (flag_of_flagByte _ rfl .c)

theorem agreeOn_addHl (r : Registers) (v : UInt16) : AgreeOn Flag.z.mask (r.addHl v).f r.f :=
  agreeOn_of_flag_eq (flag_of_flagByte _ rfl .z)

theorem agreeOn_decimalAdjust (r : Registers) : AgreeOn Flag.n.mask r.decimalAdjust.f r.f :=
  agreeOn_of_flag_eq (flag_of_flagByte _ rfl .n)

theorem agreeOn_complement (r : Registers) :
    AgreeOn (~~~(Flag.n.mask ||| Flag.h.mask)) r.complement.f r.f :=
  agreeOn_setFlag (agreeOn_setFlag (.of_eq rfl) true rfl) true rfl

theorem agreeOn_setCarry (r : Registers) : AgreeOn Flag.z.mask r.setCarry.f r.f :=
  agreeOn_setFlag (agreeOn_setFlag (agreeOn_setFlag (.of_eq rfl) false rfl) false rfl) true rfl

theorem agreeOn_flipCarry (r : Registers) : AgreeOn Flag.z.mask r.flipCarry.f r.f :=
  agreeOn_setFlag (agreeOn_setFlag (agreeOn_setFlag (.of_eq rfl) false rfl) false rfl) _ rfl

theorem agreeOn_bitFlags (r : Registers) (k v : UInt8) :
    AgreeOn Flag.c.mask (r.bitFlags k v).f r.f :=
  agreeOn_setFlag (agreeOn_setFlag (agreeOn_setFlag (.of_eq rfl) _ rfl) false rfl) true rfl

end Registers

/-! ### Instructions -/

namespace Board

variable {β : Type} [Bus β] (s : Board β)

theorem agreeOn_update {m : UInt8} (x : Reg8) (f : Registers → UInt8 → UInt8)
    {g : Registers → UInt8 → Registers} (hg : ∀ r v, AgreeOn m (g r v).f r.f) :
    AgreeOn m (s.update x f g).cpu.regs.f s.cpu.regs.f :=
  (AgreeOn.of_eq (f_setOperand _ x _)).trans (hg s.cpu.regs (s.operand x))

/-- An instruction keeps the flags that it does not report to. -/
theorem agreeOn_execute {i : Instruction} (hi : i.loadsAf = false) :
    AgreeOn i.keptFlags (s.execute i).cpu.regs.f s.cpu.regs.f := by
  cases i with
  -- Instructions that keep some of the flags
  | inc8 x => exact s.agreeOn_update x _ Registers.agreeOn_incFlags
  | dec8 x => exact s.agreeOn_update x _ Registers.agreeOn_decFlags
  | bit k x => exact Registers.agreeOn_bitFlags _ k _
  | addHl p => exact Registers.agreeOn_addHl _ _
  | scf => exact Registers.agreeOn_setCarry _
  | ccf => exact Registers.agreeOn_flipCarry _
  | daa => exact Registers.agreeOn_decimalAdjust _
  | cpl => exact Registers.agreeOn_complement _
  -- Instructions that keep none
  | alu | aluImm | shift | rlca | rrca | rla | rra | addSp | loadHlSp => exact .zero _ _
  | pop p =>
    cases p with
    | af => exact .zero _ _
    | _ => exact .of_eq rfl
  -- All others keep the flag register.
  | loadPairImm p =>
    cases p with
    | af => exact absurd hi (by decide)
    | _ => exact .of_eq s.f_skipWord
  | inc16 p | dec16 p =>
    cases p with
    | af => exact absurd hi (by decide)
    | _ => exact .of_eq rfl
  | res k x | set k x => exact .of_eq (f_setOperand _ x _)
  | load dst src => exact .of_eq (s.f_setOperand dst _)
  | loadImm dst => exact .of_eq ((s.skip.f_setOperand dst _).trans s.f_skip)
  | storeIndirect p | loadIndirect p => exact .of_eq (f_advance _ p)
  | storeHighImm | loadHighImm | stop => exact .of_eq s.f_skip
  | storeSp | storeAbs | loadAbs => exact .of_eq s.f_skipWord
  | jr => exact .of_eq (s.f_jumpRelative true)
  | jp => exact .of_eq (s.f_jumpAbsolute true)
  | call => exact .of_eq (s.f_callIf true)
  | jrIf cc => exact .of_eq ((f_chargeIf _ _ _).trans (s.f_jumpRelative _))
  | jpIf cc => exact .of_eq ((f_chargeIf _ _ _).trans (s.f_jumpAbsolute _))
  | callIf cc => exact .of_eq ((f_chargeIf _ _ _).trans (s.f_callIf _))
  | retIf cc => exact .of_eq ((f_chargeIf _ _ _).trans (s.f_returnIf _))
  | halt => exact .of_eq (congrArg Registers.f s.regs_halt)
  | ei => exact .of_eq (congrArg Registers.f s.regs_scheduleEnable)
  | _ => exact .of_eq rfl

/-! ### Steps -/

theorem loadsAf_decoded : s.decoded.1.instruction.loadsAf = false := by
  rw [decoded]
  dsimp only
  split
  · exact Decode.loadsAf_cb _
  · exact Decode.loadsAf_primary _

/-- What the step, and the interrupt logic after it, leave of the flags. -/
structure KeepsFlags (s : Board β) : Prop where
  executed : ∀ i, s.step.executed = some i →
    AgreeOn i.keptFlags s.step.board.cpu.regs.f s.cpu.regs.f
  idle : s.step.executed = none → s.step.board.cpu.regs.f = s.cpu.regs.f
  interrupt : s.handleInterrupts.2.cpu.regs.f = s.cpu.regs.f

variable {s} in
theorem regs_step_of_awake (hh : s.cpu.halted = false) (hs : s.cpu.stopped = false) :
    s.step.board.cpu.regs = (s.uncharge.begin.decoded.2.execute s.current).cpu.regs := by
  rw [step_of_awake hh hs, ← current_uncharge]
  exact regs_retire _

variable {s} in
/-- A step that executes nothing leaves the registers alone. -/
theorem regs_step_of_idle (h : s.step.executed = none) : s.step.board.cpu.regs = s.cpu.regs := by
  rcases Bool.eq_false_or_eq_true s.cpu.halted with hh | hh
  · rw [step_of_halted hh]
    rfl
  rcases Bool.eq_false_or_eq_true s.cpu.stopped with hs | hs
  · rw [step_of_stopped hh hs, watchJoypad]
    split <;> rfl
  · rw [executed_of_awake hh hs] at h
    exact absurd h (Option.some_ne_none _)

theorem keepsFlags : s.KeepsFlags where
  executed i h := by
    obtain ⟨hh, hs, rfl⟩ := awake_of_executed h
    have hcode : s.current.loadsAf = false := s.begin.loadsAf_decoded
    have hfetched : s.uncharge.begin.decoded.2.cpu.regs.f = s.cpu.regs.f := by
      obtain ⟨pc, hdecoded⟩ := s.uncharge.begin.regs_decoded
      rw [hdecoded]
      rfl
    rw [regs_step_of_awake hh hs]
    exact (agreeOn_execute _ hcode).trans (.of_eq hfetched)
  idle h := congrArg Registers.f (regs_step_of_idle h)
  interrupt := by
    obtain ⟨pc, sp, hregs⟩ := s.regs_handleInterrupts
    rw [hregs]

end Board

end EightBit.Sm83
