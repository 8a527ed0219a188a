import EightBit.Proofs.Z80.Flags
import EightBit.Proofs.Z80.UnusedFlags

/-!
# The flags that an instruction of the Z80 keeps

Arithmetic on bytes and on words with carry reports to every flag. Increments, additions to a
pointer, rotations of the accumulator and the instructions that look at one byte without combining
it keep some of them, and what is no arithmetic keeps the whole flag register, unless it exchanges
the pair `AF` or takes it off the stack.

## Main definitions

* `Instruction.keptFlags`: the flags that an instruction keeps.
* `Board.KeepsFlags`: what steps and interrupts do to the flags.

## Main results

* `Board.agreeOn_execute`: instruction by instruction.
* `Board.keepsFlags`: the same for the step.
-/

namespace EightBit.Z80

/-- The flags that a block instruction keeps, as bits of the flag register. -/
def BlockOp.keptFlags : BlockOp → UInt8
  | load => Flag.s.mask ||| Flag.z.mask ||| Flag.c.mask
  | compare => Flag.c.mask
  | input | output => Flag.h.mask ||| Flag.pv.mask ||| Flag.c.mask

namespace Instruction

/-- The flags that an instruction keeps, as bits of the flag register. -/
def keptFlags : Instruction → UInt8
  | inc8 _ | dec8 _ | bit .. | indexBit _ | rrd | rld | inC _ | loadAI | loadAR => Flag.c.mask
  | addHl _ | scf | ccf | rlca | rrca | rla | rra => Flag.s.mask ||| Flag.z.mask ||| Flag.pv.mask
  | daa => Flag.n.mask
  | cpl => ~~~(Flag.h.mask ||| Flag.n.mask)
  | block op .. => op.keptFlags
  -- These report to every flag, or load the flag register.
  | alu .. | aluImm _ | shift .. | indexShift .. | sbcHl _ | adcHl _ | neg => 0
  | exAf | pop .af => 0
  | _ => 0xFF

/-- Whether an instruction would load the pair `AF` as if it were a word, which no opcode says. -/
def loadsAf : Instruction → Bool
  | loadPairImm .af | loadPairAbs .af | inc16 .af | dec16 .af => true
  | _ => false

end Instruction

/-! ### Opcodes -/

theorem Decode.loadsAf_pages :
    ∀ op, (primary op).instruction.loadsAf = false ∧ (cb op).instruction.loadsAf = false ∧
      (ed op).instruction.loadsAf = false ∧ (index op).instruction.loadsAf = false ∧
      (indexCb op).instruction.loadsAf = false :=
  forall_byte (by decide)

theorem Decoding.loadsAf_of_next? {β : Type} [Bus β] {d e : Decoding β} (h : d.next? = some e) :
    e.instruction.loadsAf = false := by
  obtain ⟨-, -, m, rfl⟩ | ⟨-, rfl⟩ | ⟨-, rfl⟩ | ⟨-, hi, -⟩ := next?_cases h
  · exact (Decode.loadsAf_pages _).2.2.2.1
  · exact (Decode.loadsAf_pages _).2.2.1
  · exact (Decode.loadsAf_pages _).2.1
  · rw [hi]
    exact (Decode.loadsAf_pages _).2.2.2.2

theorem Board.loadsAf_found {β : Type} [Bus β] (s : Board β) :
    s.found.instruction.loadsAf = false :=
  Decoding.resolve_induction (P := fun d => d.instruction.loadsAf = false)
    (Decode.loadsAf_pages _).1 (fun _ _ h _ => Decoding.loadsAf_of_next? h) _

/-! ### Flags -/

namespace Registers

variable {q r : Registers} {m : UInt8}

theorem SameFlags.agreeOn (h : q.SameFlags r) : AgreeOn m q.f r.f :=
  .of_eq h.1

/-- Setting the flags `xs` keeps the others. -/
theorem agreeOn_setFlags (xs : List Flag) (hq : AgreeOn m q.f r.f) {flags : List (Flag × Bool)}
    (hflags : flags.map Prod.fst = xs) (h : ∀ x ∈ xs, x.mask &&& m = 0) :
    AgreeOn m (q.setFlags flags).f r.f := by
  have hmasks : Flag.masks flags &&& m = 0 := by
    subst hflags
    induction flags with
    | nil => exact UInt8.zero_and
    | cons p flags ih =>
      obtain ⟨hp, hrest⟩ := List.forall_mem_cons.1 h
      rw [Flag.masks, List.foldr_cons, or_and_mask, hp, UInt8.zero_or]
      exact ih hrest
  have hout : AgreeOn (~~~Flag.masks flags) (q.setFlags flags).f q.f :=
    q.setFlags_and_not_masks flags
  exact (hout.of_not hmasks).trans hq

theorem agreeOn_incFlags (r : Registers) (v : UInt8) : AgreeOn Flag.c.mask (r.incFlags v).f r.f :=
  agreeOn_setFlags [.s, .z, .h, .pv, .n] (.of_eq rfl) rfl (by decide)

theorem agreeOn_decFlags (r : Registers) (v : UInt8) : AgreeOn Flag.c.mask (r.decFlags v).f r.f :=
  agreeOn_setFlags [.s, .z, .h, .pv, .n] (.of_eq rfl) rfl (by decide)

theorem agreeOn_bitFlags (r : Registers) (k v : UInt8) :
    AgreeOn Flag.c.mask (r.bitFlags k v).f r.f :=
  agreeOn_setFlags [.z, .pv, .s, .h, .n] (.of_eq rfl) rfl (by decide)

/-- The sign, the zero flag and the parity of a result. -/
theorem agreeOn_setResultFlags (hq : AgreeOn m q.f r.f) (v : UInt8)
    (h : ∀ x ∈ [Flag.s, .z, .pv], x.mask &&& m = 0) : AgreeOn m (q.setResultFlags v).f r.f :=
  agreeOn_setFlags [.s, .z, .pv] hq rfl h

theorem agreeOn_decimalAdjust (r : Registers) : AgreeOn Flag.n.mask r.decimalAdjust.f r.f :=
  agreeOn_setFlags [.h, .c] (agreeOn_setResultFlags (.of_eq rfl) _ (by decide)) rfl (by decide)

theorem agreeOn_complement (r : Registers) :
    AgreeOn (~~~(Flag.h.mask ||| Flag.n.mask)) r.complement.f r.f :=
  agreeOn_setFlags [.h, .n] (.of_eq rfl) rfl (by decide)

theorem agreeOn_setCarry (r : Registers) :
    AgreeOn (Flag.s.mask ||| Flag.z.mask ||| Flag.pv.mask) r.setCarry.f r.f :=
  agreeOn_setFlags [.c, .h, .n] (.of_eq rfl) rfl (by decide)

theorem agreeOn_flipCarry (r : Registers) :
    AgreeOn (Flag.s.mask ||| Flag.z.mask ||| Flag.pv.mask) r.flipCarry.f r.f :=
  agreeOn_setFlags [.h, .c, .n] (.of_eq rfl) rfl (by decide)

theorem agreeOn_rotateA (r : Registers) (op : ShiftOp) :
    AgreeOn (Flag.s.mask ||| Flag.z.mask ||| Flag.pv.mask) (r.rotateA op).f r.f :=
  agreeOn_setFlags [.h, .n, .c] (.of_eq rfl) rfl (by decide)

theorem agreeOn_addIndex (r : Registers) (i : IndexMode) (v : UInt16) :
    AgreeOn (Flag.s.mask ||| Flag.z.mask ||| Flag.pv.mask) (r.addIndex i v).f r.f :=
  (SameFlags.setIndex _ i _).agreeOn.trans
    (agreeOn_setFlags [.n, .h, .c] (.of_eq rfl) rfl (by decide))

theorem agreeOn_loadSpecial (r : Registers) (v : UInt8) (iff2 : Bool) :
    AgreeOn Flag.c.mask (r.loadSpecial v iff2).f r.f :=
  agreeOn_setFlags [.s, .z, .h, .n, .pv] (.of_eq rfl) rfl (by decide)

theorem agreeOn_digitFlags (r : Registers) : AgreeOn Flag.c.mask r.digitFlags.f r.f :=
  agreeOn_setFlags [.h, .n] (agreeOn_setResultFlags (.of_eq rfl) _ (by decide)) rfl (by decide)

theorem agreeOn_inputFlags (r : Registers) (v : UInt8) :
    AgreeOn Flag.c.mask (r.inputFlags v).f r.f :=
  agreeOn_setFlags [.h, .n] (agreeOn_setResultFlags (.of_eq rfl) _ (by decide)) rfl (by decide)

end Registers

/-! ### Instructions -/

namespace Board

open Registers

variable {β : Type} [Bus β] (s : Board β) {m : UInt8}

theorem agreeOn_update (x : Reg8) (f : Registers → UInt8 → UInt8)
    {g : Registers → UInt8 → Registers} (hg : ∀ r v, AgreeOn m (g r v).f r.f) :
    AgreeOn m (s.update x f g).cpu.regs.f s.cpu.regs.f :=
  (SameFlags.setOperandIn _ _ x _).agreeOn.trans
    ((hg _ _).trans (SameFlags.aim s x).agreeOn)

theorem agreeOn_updateIndexed (copy : Option Reg8) (f : Registers → UInt8 → UInt8)
    {g : Registers → UInt8 → Registers} (hg : ∀ r v, AgreeOn m (g r v).f r.f) :
    AgreeOn m (s.updateIndexed copy f g).cpu.regs.f s.cpu.regs.f := by
  have hflags := hg s.cpu.regs (s.load s.pointer)
  cases copy with
  | none => exact hflags
  | some x => exact (SameFlags.setOperandIn _ _ x _).agreeOn.trans hflags

theorem agreeOn_inputByC (dst : Option Reg8) :
    AgreeOn Flag.c.mask (s.inputByC dst).cpu.regs.f s.cpu.regs.f := by
  have hflags := s.cpu.regs.agreeOn_inputFlags (portIn s.bus s.cpu.regs.bc).1
  cases dst with
  | none => exact hflags
  | some x => exact (SameFlags.setOperandIn _ _ x _).agreeOn.trans hflags

theorem agreeOn_block (op : BlockOp) (increment repeats : Bool) :
    AgreeOn op.keptFlags (s.block op increment repeats).cpu.regs.f s.cpu.regs.f := by
  -- Going on moves the program counter only.
  have hagain {t : Board β} (ht : AgreeOn op.keptFlags t.cpu.regs.f s.cpu.regs.f) (again : Bool) :
      AgreeOn op.keptFlags
        (if again then (t.jumpTo (t.cpu.regs.pc - 2)).charge repeatCost else t).cpu.regs.f
        s.cpu.regs.f := by
    cases again <;> exact ht
  cases op with
  | load => exact hagain (agreeOn_setFlags [.h, .n, .pv] (.of_eq rfl) rfl (by decide)) _
  | compare =>
    exact hagain (agreeOn_setFlags [.s, .z, .h, .pv, .n] (.of_eq rfl) rfl (by decide)) _
  | input | output => exact hagain (agreeOn_setFlags [.z, .s, .n] (.of_eq rfl) rfl (by decide)) _

/-- An instruction keeps the flags that it does not report to. -/
theorem agreeOn_execute {i : Instruction} (hi : i.loadsAf = false) :
    AgreeOn i.keptFlags (s.execute i).cpu.regs.f s.cpu.regs.f := by
  cases i with
  -- Instructions that keep some of the flags
  | inc8 x => exact s.agreeOn_update x _ agreeOn_incFlags
  | dec8 x => exact s.agreeOn_update x _ agreeOn_decFlags
  | bit k x => exact (agreeOn_bitFlags _ k _).trans (SameFlags.aim s x).agreeOn
  | indexBit k => exact agreeOn_bitFlags _ k _
  | rrd | rld => exact agreeOn_digitFlags _
  | inC dst => exact s.agreeOn_inputByC dst
  | loadAI | loadAR => exact agreeOn_loadSpecial _ _ _
  | addHl p => exact agreeOn_addIndex _ _ _
  | scf => exact agreeOn_setCarry _
  | ccf => exact agreeOn_flipCarry _
  | rlca | rrca | rla | rra => exact agreeOn_rotateA _ _
  | daa => exact agreeOn_decimalAdjust _
  | cpl => exact agreeOn_complement _
  | block op increment repeats => exact s.agreeOn_block op increment repeats
  -- Instructions that keep none
  | alu | aluImm | shift | indexShift | sbcHl | adcHl | neg | exAf => exact .zero _ _
  | pop p =>
    cases p with
    | af => exact .zero _ _
    | hl => exact (SameFlags.setIndex _ _ _).agreeOn
    | _ => exact .of_eq rfl
  -- All others keep the flag register.
  | loadPairImm p | loadPairAbs p | inc16 p | dec16 p =>
    cases p with
    | af => exact absurd hi (by decide)
    | hl => exact (SameFlags.setIndex _ _ _).agreeOn
    | _ => exact .of_eq rfl
  | loadHlAbs | exSpHl => exact (SameFlags.setIndex _ _ _).agreeOn
  | res k x | set k x => exact s.agreeOn_update x _ fun _ _ => .of_eq rfl
  | indexRes k copy | indexSet k copy => exact s.agreeOn_updateIndexed copy _ fun _ _ => .of_eq rfl
  | load dst src =>
    exact SameFlags.agreeOn ((SameFlags.setOperandIn _ _ dst _).trans
      ((SameFlags.aim _ src).trans (.aim s dst)))
  | loadImm dst => exact SameFlags.agreeOn ((SameFlags.setOperandIn _ _ dst _).trans (.aim s dst))
  | djnz => exact SameFlags.agreeOn ((SameFlags.chargeIf _ _ _).trans (.jumpRelative _ _))
  | jr => exact (SameFlags.jumpRelative s true).agreeOn
  | jp => exact (SameFlags.jumpAbsolute s true).agreeOn
  | call => exact (SameFlags.callIf s true).agreeOn
  | jrIf cc => exact SameFlags.agreeOn ((SameFlags.chargeIf _ _ _).trans (.jumpRelative s _))
  | jpIf cc => exact SameFlags.agreeOn ((SameFlags.chargeIf _ _ _).trans (.jumpAbsolute s _))
  | callIf cc => exact SameFlags.agreeOn ((SameFlags.chargeIf _ _ _).trans (.callIf s _))
  | retIf cc => exact SameFlags.agreeOn ((SameFlags.chargeIf _ _ _).trans (.returnIf s _))
  | _ => exact .of_eq rfl

/-! ### Steps -/

/-- What the step, and the interrupt logic after it, leave of the flags. -/
structure KeepsFlags (s : Board β) : Prop where
  executed : ∀ m i, s.step.executed = some (m, i) →
    AgreeOn i.keptFlags s.step.board.cpu.regs.f s.cpu.regs.f
  idle : s.step.executed = none → s.step.board.cpu.regs.f = s.cpu.regs.f
  interrupt : s.handleInterrupts.2.cpu.regs.f = s.cpu.regs.f

theorem keepsFlags : s.KeepsFlags where
  executed m i h := by
    obtain ⟨rfl, hregs⟩ := found_of_executed h
    have hfetched : s.found.board.cpu.regs.f = s.cpu.regs.f := by
      obtain ⟨pc, r, bytes, m', a, hfound⟩ := s.started.begin.fetchedFrom_decoded
      rw [found, hfound]
      rfl
    rw [hregs]
    exact (agreeOn_execute _ s.loadsAf_found).trans (.of_eq hfetched)
  idle h := by
    rcases Bool.eq_false_or_eq_true s.cpu.halted with hhalted | hrun
    · rw [step_of_halted hhalted]
      rfl
    · rw [executed_of_running hrun] at h
      exact absurd h (Option.some_ne_none _)
  interrupt := by
    rw [handleInterrupts]
    dsimp only
    split
    · rfl
    · split <;> rfl

end Board

end EightBit.Z80
