import EightBit.Proofs.Bits
import EightBit.Proofs.Sm83.Fetch
import EightBit.Proofs.Sm83.Run

/-!
# The flag bits that do not exist on the SM83

The flag register is rebuilt by arithmetic, changed flag by flag by other instructions, and loaded
from the stack. None of them ever sets one of the bits that do not exist, so that the pair `AF` is
the accumulator and the flag register as they are, and this is what a push stores.

## Main definitions

* `Registers.Tidy`: no flag bit that does not exist is set.
* `Call`, `Board.perform`: what a driver may do, changes of registers included.
* `Board.ShowsFlags`: the flag register is seen as it is.

## Main results

* `Registers.Tidy.execute`: an instruction keeps the registers tidy.
* `Registers.Tidy.performAll`: so does a sequence of calls.
* `Board.bus_step_of_pushAf`, `Board.executed_of_pushAf`: what a push of the pair `AF` stores, and
  its opcode.
* `Board.showsFlags_performAll`: the flag register is seen as it is in every run from power-on.
-/

namespace EightBit.Sm83

/-- No flag bit that does not exist is set. -/
def Registers.Tidy (r : Registers) : Prop := r.f &&& unusedFlagBits = 0

/-! ### Flags -/

theorem flagByte_and_unusedFlagBits (z n h c : Bool) : flagByte z n h c &&& unusedFlagBits = 0 := by
  revert z n h c
  decide

theorem Flag.mask_and_unusedFlagBits (x : Flag) : x.mask &&& unusedFlagBits = 0 := by
  cases x <;> rfl

namespace Registers

variable {r : Registers}

/-- Without bits that do not exist, the pair `AF` is the accumulator and the flag register. -/
theorem Tidy.af (h : r.Tidy) : r.pair .af = word r.a r.f :=
  congrArg (word r.a) (and_not_eq_self h)

namespace Tidy

/-- Only the flag register matters. -/
theorem of_f {q : Registers} (h : r.Tidy) (hf : q.f = r.f) : q.Tidy := by
  rwa [Tidy, hf]

theorem setFlag (h : r.Tidy) (x : Flag) (on : Bool) : (r.setFlag x on).Tidy := by
  cases on with
  | true =>
    change (r.f ||| x.mask) &&& unusedFlagBits = 0
    rw [or_and_mask, h, x.mask_and_unusedFlagBits]
    rfl
  | false =>
    change r.f &&& ~~~x.mask &&& unusedFlagBits = 0
    rw [UInt8.and_assoc, UInt8.and_comm (~~~x.mask), ← UInt8.and_assoc, h, UInt8.zero_and]

theorem setPair (h : r.Tidy) (p : Pair) (w : UInt16) : (r.setPair p w).Tidy := by
  cases p with
  | af => exact and_not_and_self _ _
  | _ => exact h

theorem alu (op : AluOp) (v : UInt8) : (r.alu op v).Tidy := by
  cases op <;> exact flagByte_and_unusedFlagBits _ _ _ _

theorem decimalAdjust : r.decimalAdjust.Tidy :=
  flagByte_and_unusedFlagBits _ _ _ _

theorem incFlags (v : UInt8) : (r.incFlags v).Tidy :=
  flagByte_and_unusedFlagBits _ _ _ _

theorem decFlags (v : UInt8) : (r.decFlags v).Tidy :=
  flagByte_and_unusedFlagBits _ _ _ _

theorem addHl (v : UInt16) : (r.addHl v).Tidy :=
  flagByte_and_unusedFlagBits _ _ _ _

theorem spOffsetFlags (d : UInt8) : (r.spOffsetFlags d).Tidy :=
  flagByte_and_unusedFlagBits _ _ _ _

theorem shiftFlags (op : ShiftOp) (v : UInt8) : (r.shiftFlags op v).Tidy :=
  flagByte_and_unusedFlagBits _ _ _ _

theorem rotateA (op : ShiftOp) : (r.rotateA op).Tidy :=
  flagByte_and_unusedFlagBits _ _ _ _

theorem complement (h : r.Tidy) : r.complement.Tidy :=
  ((h.of_f rfl).setFlag .n true).setFlag .h true

theorem setCarry (h : r.Tidy) : r.setCarry.Tidy :=
  ((h.setFlag .n false).setFlag .h false).setFlag .c true

theorem flipCarry (h : r.Tidy) : r.flipCarry.Tidy :=
  ((h.setFlag .n false).setFlag .h false).setFlag .c _

theorem bitFlags (h : r.Tidy) (k v : UInt8) : (r.bitFlags k v).Tidy :=
  ((h.setFlag .z _).setFlag .n false).setFlag .h true

theorem clearFlags : r.clearFlags.Tidy := UInt8.zero_and

end Tidy

/-- The processor starts with tidy registers. -/
theorem tidy_registers (boot : BootState) : boot.registers.Tidy := by
  rw [Tidy]
  cases boot <;> decide

end Registers

/-! ### Moves that leave the flags alone -/

namespace Board

variable {β : Type} (s : Board β)

/-- A fetch changes the program counter only. -/
theorem regs_skip_eq [Bus β] : ∃ pc, s.skip.cpu.regs = { s.cpu.regs with pc := pc } := by
  unfold skip
  dsimp only
  split
  · exact ⟨s.cpu.regs.pc, rfl⟩
  · exact ⟨s.cpu.regs.pc + 1, rfl⟩

@[simp] theorem f_advance (r : Registers) (p : Indirect) : (p.advance r).f = r.f := by
  cases p <;> rfl

@[simp] theorem f_chargeIf (taken : Bool) (n : Nat) :
    (s.chargeIf taken n).cpu.regs.f = s.cpu.regs.f := by
  cases taken <;> rfl

variable [Bus β]

@[simp] theorem f_skip : s.skip.cpu.regs.f = s.cpu.regs.f := by
  obtain ⟨pc, h⟩ := s.regs_skip_eq
  rw [h]

@[simp] theorem f_skipWord : s.skipWord.cpu.regs.f = s.cpu.regs.f := by
  rw [skipWord, f_skip, f_skip]

@[simp] theorem f_setOperand (x : Reg8) (v : UInt8) :
    (s.setOperand x v).cpu.regs.f = s.cpu.regs.f := by
  cases x <;> rfl

@[simp] theorem f_jumpRelative (taken : Bool) :
    (s.jumpRelative taken).cpu.regs.f = s.cpu.regs.f := by
  rw [jumpRelative]
  cases taken <;> exact s.f_skip

@[simp] theorem f_jumpAbsolute (taken : Bool) :
    (s.jumpAbsolute taken).cpu.regs.f = s.cpu.regs.f := by
  rw [jumpAbsolute]
  cases taken <;> exact s.f_skipWord

@[simp] theorem f_callIf (taken : Bool) : (s.callIf taken).cpu.regs.f = s.cpu.regs.f := by
  rw [callIf]
  cases taken <;> exact s.f_skipWord

@[simp] theorem f_returnIf (taken : Bool) : (s.returnIf taken).cpu.regs.f = s.cpu.regs.f := by
  cases taken <;> rfl

/-- Decoding fetches and does nothing else. -/
theorem regs_decoded : ∃ pc, s.decoded.2.cpu.regs = { s.cpu.regs with pc := pc } := by
  obtain ⟨pc, h⟩ := s.regs_skip_eq
  rw [decoded]
  dsimp only
  split
  · obtain ⟨pc', h'⟩ := s.skip.regs_skip_eq
    exact ⟨pc', by rw [h', h]⟩
  · exact ⟨pc, h⟩

/-- The interrupt logic moves the program counter and the stack pointer at most. -/
theorem regs_handleInterrupts :
    ∃ pc sp, s.handleInterrupts.2.cpu.regs = { s.cpu.regs with pc := pc, sp := sp } := by
  rcases Bool.eq_false_or_eq_true s.accepts with h | h
  · rw [handleInterrupts_of_accepts h, dispatch]
    dsimp only
    split <;> exact ⟨_, _, rfl⟩
  · rw [handleInterrupts_of_not_accepts h]
    dsimp only
    split <;> exact ⟨s.cpu.regs.pc, s.cpu.regs.sp, rfl⟩

end Board

namespace Registers.Tidy

variable {β : Type} [Bus β] {s : Board β}

/-! ### Instructions -/

theorem update (x : Reg8) (f : Registers → UInt8 → UInt8) {g : Registers → UInt8 → Registers}
    (hg : ∀ v, (g s.cpu.regs v).Tidy) : (s.update x f g).cpu.regs.Tidy :=
  of_f (hg (s.operand x)) (Board.f_setOperand _ x _)

/-- An instruction keeps the registers tidy. -/
theorem execute (h : s.cpu.regs.Tidy) (i : Instruction) : (s.execute i).cpu.regs.Tidy := by
  cases i with
  -- Arithmetic rebuilds the flag register or changes some of its flags.
  | alu op x => exact alu op _
  | aluImm op => exact alu op _
  | daa => exact decimalAdjust
  | cpl => exact h.complement
  | scf => exact h.setCarry
  | ccf => exact h.flipCarry
  | rlca | rrca | rla | rra => exact rotateA _
  | addHl p => exact addHl _
  | addSp | loadHlSp => exact (spOffsetFlags _).of_f rfl
  | bit k x => exact h.bitFlags k _
  | inc8 x => exact update x _ incFlags
  | dec8 x => exact update x _ decFlags
  | shift op x => exact update x _ (shiftFlags op)
  | res k x | set k x => exact update x _ fun _ => h
  -- Pairs are written without the bits that do not exist.
  | loadPairImm p => exact (h.of_f s.f_skipWord).setPair p _
  | inc16 p | dec16 p => exact h.setPair p _
  | pop p => exact setPair (r := s.drop.cpu.regs) h p _
  -- All others leave the flags alone.
  | load dst src => exact h.of_f (s.f_setOperand dst _)
  | loadImm dst => exact h.of_f ((s.skip.f_setOperand dst _).trans s.f_skip)
  | storeIndirect p | loadIndirect p => exact h.of_f (Board.f_advance _ p)
  | storeHighImm | loadHighImm | stop => exact h.of_f s.f_skip
  | storeSp | storeAbs | loadAbs => exact h.of_f s.f_skipWord
  | jr => exact h.of_f (s.f_jumpRelative true)
  | jp => exact h.of_f (s.f_jumpAbsolute true)
  | call => exact h.of_f (s.f_callIf true)
  | jrIf cc => exact h.of_f ((Board.f_chargeIf _ _ _).trans (s.f_jumpRelative _))
  | jpIf cc => exact h.of_f ((Board.f_chargeIf _ _ _).trans (s.f_jumpAbsolute _))
  | callIf cc => exact h.of_f ((Board.f_chargeIf _ _ _).trans (s.f_callIf _))
  | retIf cc => exact h.of_f ((Board.f_chargeIf _ _ _).trans (s.f_returnIf _))
  | halt => exact h.of_f (congrArg Registers.f s.regs_halt)
  | ei => exact h.of_f (congrArg Registers.f s.regs_scheduleEnable)
  | _ => exact h

/-! ### Calls -/

theorem step (h : s.cpu.regs.Tidy) : s.step.board.cpu.regs.Tidy := by
  rcases Bool.eq_false_or_eq_true s.cpu.halted with hh | hh
  · rw [Board.step_of_halted hh]
    exact h
  rcases Bool.eq_false_or_eq_true s.cpu.stopped with hs | hs
  · rw [Board.step_of_stopped hh hs]
    exact h.of_f (by rw [Board.watchJoypad]; split <;> rfl)
  · obtain ⟨pc, hdecoded⟩ := s.uncharge.begin.regs_decoded
    have hfetched : s.uncharge.begin.decoded.2.cpu.regs.Tidy := by
      rw [hdecoded]
      exact h
    rw [Board.step_of_awake hh hs]
    exact (hfetched.execute _).of_f (congrArg Registers.f (Board.regs_retire _))

theorem handleInterrupts (h : s.cpu.regs.Tidy) : s.handleInterrupts.2.cpu.regs.Tidy := by
  obtain ⟨pc, sp, hregs⟩ := s.regs_handleInterrupts
  rw [hregs]
  exact h

theorem apply (h : s.cpu.regs.Tidy) (m : Move β) : (s.apply m).cpu.regs.Tidy := by
  cases m with
  | step => exact h.step
  | interrupt => exact h.handleInterrupts
  | reset => exact tidy_registers s.cpu.boot
  | drive f => exact h

end Registers.Tidy

/-- What a driver does in one call, which may be to change registers. -/
inductive Call (β : Type)
  | move (m : Move β)
  | setFlag (x : Flag) (on : Bool)
  | clearFlags
  | setPair (p : Pair) (w : UInt16)

namespace Board

variable {β : Type} [Bus β]

/-- The board after one call. -/
def perform (s : Board β) : Call β → Board β
  | .move m => s.apply m
  | .setFlag x on => s.mapRegs (·.setFlag x on)
  | .clearFlags => s.mapRegs (·.clearFlags)
  | .setPair p w => s.mapRegs (·.setPair p w)

/-- The board after a sequence of calls. -/
def performAll (s : Board β) (calls : List (Call β)) : Board β :=
  calls.foldl perform s

end Board

namespace Registers.Tidy

variable {β : Type} [Bus β] {s : Board β}

theorem perform (h : s.cpu.regs.Tidy) (c : Call β) : (s.perform c).cpu.regs.Tidy := by
  cases c with
  | move m => exact h.apply m
  | setFlag x on => exact h.setFlag x on
  | clearFlags => exact clearFlags
  | setPair p w => exact h.setPair p w

/-- A sequence of calls keeps the registers tidy. -/
theorem performAll (h : s.cpu.regs.Tidy) (calls : List (Call β)) :
    (s.performAll calls).cpu.regs.Tidy :=
  List.foldlRecOn (motive := fun t : Board β => t.cpu.regs.Tidy) calls Board.perform h
    fun _ ht c _ => ht.perform c

end Registers.Tidy

/-! ### Pushing the flags -/

namespace Board

variable {β : Type} [Bus β] {s : Board β}

/-- With tidy registers, a push of the pair `AF` stores the accumulator and the flag register as
they are. -/
theorem bus_step_of_pushAf (h : s.cpu.regs.Tidy)
    (hpush : s.step.executed = some (.push .af)) :
    s.step.board.bus =
      write (write s.bus (s.cpu.regs.sp - 1) s.cpu.regs.a) (s.cpu.regs.sp - 2) s.cpu.regs.f := by
  rcases Bool.eq_false_or_eq_true s.cpu.halted with hh | hh
  · rw [step_of_halted hh] at hpush
    exact absurd hpush nofun
  rcases Bool.eq_false_or_eq_true s.cpu.stopped with hs | hs
  · rw [step_of_stopped hh hs] at hpush
    exact absurd hpush nofun
  rw [step_of_awake hh hs] at hpush ⊢
  have hi : s.uncharge.begin.decoded.1.instruction = .push .af := Option.some.inj hpush
  obtain ⟨pc, hregs⟩ := s.uncharge.begin.regs_decoded
  have hbus : s.uncharge.begin.decoded.2.bus = s.bus := bus_decoded _
  calc s.uncharge.executeNext.board.bus
      = (s.uncharge.begin.decoded.2.execute (.push .af)).bus := by rw [← hi]; rfl
    _ = pushWord s.bus s.cpu.regs.sp (s.cpu.regs.pair .af) := by
      rw [execute, push, hregs, hbus]
      rfl
    _ = write (write s.bus (s.cpu.regs.sp - 1) s.cpu.regs.a) (s.cpu.regs.sp - 2) s.cpu.regs.f := by
      rw [h.af, pushWord, hiByte_word, loByte_word]

/-- The opcode `F5` is a push of the pair `AF`. -/
theorem executed_of_pushAf (hh : s.cpu.halted = false) (hs : s.cpu.stopped = false)
    (hop : s.nextByte = 0xF5) : s.step.executed = some (.push .af) := by
  have hi : (Decode.primary s.nextByte).instruction = .push .af := by
    rw [hop]
    rfl
  rw [step_of_awake hh hs, executeNext, decoded_of_opcode (s := s.uncharge.begin) hi (by simp)]
  exact congrArg some hi

/-- The flag register is seen as it is: it has no bits that do not exist, the pair `AF` shows it,
and a push stores it. -/
structure ShowsFlags (s : Board β) : Prop where
  unused : s.cpu.regs.f &&& unusedFlagBits = 0
  pair : s.cpu.regs.pair .af = word s.cpu.regs.a s.cpu.regs.f
  push : s.step.executed = some (.push .af) → s.step.board.bus =
    write (write s.bus (s.cpu.regs.sp - 1) s.cpu.regs.a) (s.cpu.regs.sp - 2) s.cpu.regs.f
  /-- In front of the opcode of a push, this is what a step does unless the processor is idle. -/
  pushCode : s.nextByte = 0xF5 → s.cpu.halted = false → s.cpu.stopped = false →
    s.step.executed = some (.push .af) ∧ s.step.board.bus =
      write (write s.bus (s.cpu.regs.sp - 1) s.cpu.regs.a) (s.cpu.regs.sp - 2) s.cpu.regs.f

theorem showsFlags_performAll (boot : BootState) (bus : β) (calls : List (Call β)) :
    ((powerOn boot bus).performAll calls).ShowsFlags := by
  have htidy : ((powerOn boot bus).performAll calls).cpu.regs.Tidy :=
    Registers.Tidy.performAll (s := powerOn boot bus) (Registers.tidy_registers boot) calls
  exact {
    unused := htidy
    pair := htidy.af
    push := bus_step_of_pushAf htidy
    pushCode := fun hop hh hs =>
      have hpush := executed_of_pushAf hh hs hop
      ⟨hpush, bus_step_of_pushAf htidy hpush⟩ }

end Board

end EightBit.Sm83
