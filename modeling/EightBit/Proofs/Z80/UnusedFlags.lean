import EightBit.Proofs.Bits
import EightBit.Proofs.Z80.Length
import EightBit.Z80.Interrupt

/-!
# The flag bits that do not exist on the Z80

The flag register is rebuilt by arithmetic, changed flag by flag by other instructions, loaded from
the stack, and exchanged with the alternate one. None of this ever sets one of the bits that are
always zero in either of them, so that the pair `AF` is the accumulator and the flag register as
they are, and this is what a push stores.

## Main definitions

* `Registers.Tidy`: no flag bit that does not exist is set, in neither of the two flag registers.
* `Call`, `Board.perform`: what a driver may do, changes of registers included.
* `Board.ShowsFlags`: the flag registers are seen as they are.

## Main results

* `Registers.Tidy.execute`: an instruction keeps the registers tidy.
* `Registers.Tidy.performAll`: so does a sequence of calls.
* `Board.bus_step_of_pushAf`, `Board.executed_of_pushAf`: what a push of the pair `AF` stores, and
  its codes.
* `Board.showsFlags_performAll`: the flag registers are seen as they are in every run from power-on.
-/

namespace EightBit.Z80

/-- No flag bit that does not exist is set. -/
structure Registers.Tidy (r : Registers) : Prop where
  f : r.f &&& unusedFlagBits = 0
  alt : r.alt.f &&& unusedFlagBits = 0

/-! ### Flags -/

theorem flagByte_and_unusedFlagBits (s z h pv n c : Bool) :
    flagByte s z h pv n c &&& unusedFlagBits = 0 := by
  revert s z h pv n c
  decide

theorem Flag.mask_and_unusedFlagBits (x : Flag) : x.mask &&& unusedFlagBits = 0 := by
  cases x <;> rfl

namespace Registers

variable {r q : Registers}

/-- Without bits that do not exist, the pair `AF` is the accumulator and the flag register. -/
theorem Tidy.af (h : r.Tidy) : r.pair .af = word r.a r.f :=
  congrArg (word r.a) (and_not_eq_self h.f)

/-- The flag registers are those of `r`. -/
def SameFlags (q r : Registers) : Prop := q.f = r.f ∧ q.alt.f = r.alt.f

theorem SameFlags.trans {p : Registers} (hp : p.SameFlags q) (hq : q.SameFlags r) :
    p.SameFlags r :=
  ⟨hp.1.trans hq.1, hp.2.trans hq.2⟩

theorem SameFlags.setIndex (r : Registers) (m : IndexMode) (w : UInt16) :
    (r.setIndex m w).SameFlags r := by
  cases m <;> exact ⟨rfl, rfl⟩

namespace Tidy

/-- Only the flag registers matter. -/
theorem of_sameFlags (h : r.Tidy) (hq : q.SameFlags r) : q.Tidy where
  f := by rw [hq.1, h.f]
  alt := by rw [hq.2, h.alt]

theorem of_flagByte (h : r.Tidy) {s z hc pv n c : Bool} (hf : q.f = flagByte s z hc pv n c)
    (ha : q.alt = r.alt) : q.Tidy where
  f := by rw [hf, flagByte_and_unusedFlagBits]
  alt := by rw [ha, h.alt]

theorem setA (h : r.Tidy) (a : UInt8) : { r with a := a }.Tidy :=
  h.of_sameFlags ⟨rfl, rfl⟩

theorem setFlag (h : r.Tidy) (x : Flag) (on : Bool) : (r.setFlag x on).Tidy where
  f := by
    cases on with
    | true =>
      change (r.f ||| x.mask) &&& unusedFlagBits = 0
      rw [or_and_mask, h.f, x.mask_and_unusedFlagBits]
      rfl
    | false =>
      change r.f &&& ~~~x.mask &&& unusedFlagBits = 0
      rw [UInt8.and_assoc, UInt8.and_comm (~~~x.mask), ← UInt8.and_assoc, h.f, UInt8.zero_and]
  alt := h.alt

theorem setFlags (h : r.Tidy) (flags : List (Flag × Bool)) : (r.setFlags flags).Tidy :=
  List.foldlRecOn (motive := Tidy) flags _ h fun _ hq p _ => hq.setFlag p.1 p.2

theorem setAf (h : r.Tidy) (w : UInt16) : (r.setAf w).Tidy where
  f := and_not_and_self _ _
  alt := h.alt

theorem setPair (h : r.Tidy) (p : Pair) (w : UInt16) : (r.setPair p w).Tidy := by
  cases p with
  | af => exact h.setAf w
  | _ => exact h.of_sameFlags ⟨rfl, rfl⟩

theorem setModePair (h : r.Tidy) (m : IndexMode) (p : Pair) (w : UInt16) :
    (r.setModePair m p w).Tidy := by
  cases p with
  | hl => exact h.of_sameFlags (.setIndex r m w)
  | af => exact h.setAf w
  | _ => exact h.of_sameFlags ⟨rfl, rfl⟩

theorem exchangeAf (r : Registers) : r.exchangeAf.Tidy where
  f := and_not_and_self _ _
  alt := and_not_and_self _ _

theorem exchangeAll (h : r.Tidy) : r.exchangeAll.Tidy :=
  h.of_sameFlags ⟨rfl, rfl⟩

theorem clearFlags (h : r.Tidy) : r.clearFlags.Tidy where
  f := UInt8.zero_and
  alt := h.alt

theorem alu (h : r.Tidy) (op : AluOp) (v : UInt8) : (r.alu op v).Tidy := by
  cases op <;> exact h.of_flagByte rfl rfl

theorem negate (h : r.Tidy) : r.negate.Tidy :=
  h.of_flagByte rfl rfl

theorem addWithCarry (h : r.Tidy) (v : UInt16) : (r.addWithCarry v).Tidy :=
  h.of_flagByte rfl rfl

theorem subWithCarry (h : r.Tidy) (v : UInt16) : (r.subWithCarry v).Tidy :=
  h.of_flagByte rfl rfl

theorem shiftFlags (h : r.Tidy) (op : ShiftOp) (v : UInt8) : (r.shiftFlags op v).Tidy :=
  h.of_flagByte rfl rfl

theorem setResultFlags (h : r.Tidy) (v : UInt8) : (r.setResultFlags v).Tidy :=
  h.setFlags _

theorem decimalAdjust (h : r.Tidy) : r.decimalAdjust.Tidy :=
  ((h.setA _).setResultFlags _).setFlags _

theorem complement (h : r.Tidy) : r.complement.Tidy :=
  (h.setA _).setFlags _

theorem rotateA (h : r.Tidy) (op : ShiftOp) : (r.rotateA op).Tidy :=
  (h.setA _).setFlags _

theorem loadSpecial (h : r.Tidy) (v : UInt8) (iff2 : Bool) : (r.loadSpecial v iff2).Tidy :=
  (h.setA _).setFlags _

theorem addIndex (h : r.Tidy) (m : IndexMode) (v : UInt16) : (r.addIndex m v).Tidy :=
  (h.setFlags _).of_sameFlags (.setIndex _ m _)

theorem digitFlags (h : r.Tidy) : r.digitFlags.Tidy :=
  (h.setResultFlags _).setFlags _

theorem inputFlags (h : r.Tidy) (v : UInt8) : (r.inputFlags v).Tidy :=
  (h.setResultFlags v).setFlags _

end Tidy

theorem tidy_resetRegisters : Cpu.resetRegisters.Tidy where
  f := by decide
  alt := by decide

end Registers

/-! ### Operands -/

namespace Registers.SameFlags

variable {β : Type} [Bus β]

theorem aim (s : Board β) (x : Reg8) : (s.aim x).cpu.regs.SameFlags s.cpu.regs := by
  rw [Board.aim]
  split <;> exact ⟨rfl, rfl⟩

theorem setOperandIn (s : Board β) (m : IndexMode) (x : Reg8) (v : UInt8) :
    (s.setOperandIn m x v).cpu.regs.SameFlags s.cpu.regs := by
  cases x with
  | h | l => exact setIndex _ m _
  | _ => exact ⟨rfl, rfl⟩

omit [Bus β] in
theorem chargeIf (s : Board β) (taken : Bool) (n : Nat) :
    (s.chargeIf taken n).cpu.regs.SameFlags s.cpu.regs := by
  cases taken <;> exact ⟨rfl, rfl⟩

theorem jumpRelative (s : Board β) (taken : Bool) :
    (s.jumpRelative taken).cpu.regs.SameFlags s.cpu.regs := by
  cases taken <;> exact ⟨rfl, rfl⟩

theorem jumpAbsolute (s : Board β) (taken : Bool) :
    (s.jumpAbsolute taken).cpu.regs.SameFlags s.cpu.regs := by
  cases taken <;> exact ⟨rfl, rfl⟩

theorem skipWord (s : Board β) : s.skipWord.cpu.regs.SameFlags s.cpu.regs :=
  ⟨rfl, rfl⟩

theorem callIf (s : Board β) (taken : Bool) :
    (s.callIf taken).cpu.regs.SameFlags s.cpu.regs := by
  cases taken with
  | false => exact skipWord s
  | true =>
    have hcall : ((s.skipWord.push s.skipWord.cpu.regs.pc).jumpTo s.nextWord).cpu.regs.SameFlags
        s.skipWord.cpu.regs := ⟨rfl, rfl⟩
    exact hcall.trans (skipWord s)

theorem returnIf (s : Board β) (taken : Bool) :
    (s.returnIf taken).cpu.regs.SameFlags s.cpu.regs := by
  cases taken <;> exact ⟨rfl, rfl⟩

end Registers.SameFlags

namespace Registers.Tidy

variable {β : Type} [Bus β] {s : Board β}

theorem update (h : s.cpu.regs.Tidy) (x : Reg8) (f : Registers → UInt8 → UInt8)
    {g : Registers → UInt8 → Registers} (hg : ∀ r v, r.Tidy → (g r v).Tidy) :
    (s.update x f g).cpu.regs.Tidy :=
  (hg _ _ (h.of_sameFlags (.aim s x))).of_sameFlags (.setOperandIn _ _ x _)

theorem updateIndexed (h : s.cpu.regs.Tidy) (copy : Option Reg8) (f : Registers → UInt8 → UInt8)
    {g : Registers → UInt8 → Registers} (hg : ∀ r v, r.Tidy → (g r v).Tidy) :
    (s.updateIndexed copy f g).cpu.regs.Tidy := by
  have hflags := hg s.cpu.regs (s.load s.pointer) h
  cases copy with
  | none => exact hflags
  | some x => exact hflags.of_sameFlags (.setOperandIn _ _ x _)

theorem inputByC (h : s.cpu.regs.Tidy) (dst : Option Reg8) : (s.inputByC dst).cpu.regs.Tidy := by
  have hflags := h.inputFlags (portIn s.bus s.cpu.regs.bc).1
  cases dst with
  | none => exact hflags
  | some x => exact hflags.of_sameFlags (.setOperandIn _ _ x _)

theorem block (h : s.cpu.regs.Tidy) (op : BlockOp) (increment repeats : Bool) :
    (s.block op increment repeats).cpu.regs.Tidy := by
  -- Whichever byte is handled, the flags are set one by one. Going on moves the program counter.
  have hagain {t : Board β} (ht : t.cpu.regs.Tidy) (again : Bool) :
      (if again then (t.jumpTo (t.cpu.regs.pc - 2)).charge Board.repeatCost
        else t).cpu.regs.Tidy := by
    cases again
    · exact ht
    · exact ht.of_sameFlags ⟨rfl, rfl⟩
  cases op <;> exact hagain (setFlags (h.of_sameFlags (by exact ⟨rfl, rfl⟩)) _) _

/-- An instruction keeps the registers tidy. -/
theorem execute (h : s.cpu.regs.Tidy) (i : Instruction) : (s.execute i).cpu.regs.Tidy := by
  cases i with
  -- Arithmetic rebuilds the flag register or changes some of its flags.
  | alu op x => exact (h.of_sameFlags (.aim s x)).alu op _
  | aluImm op => exact (h.of_sameFlags (q := s.skip.cpu.regs) ⟨rfl, rfl⟩).alu op _
  | bit k x => exact (h.of_sameFlags (.aim s x)).setFlags _
  | indexBit k => exact h.setFlags _
  | inc8 x | dec8 x => exact h.update x _ fun _ _ hr => hr.setFlags _
  | shift op x => exact h.update x _ fun _ _ hr => hr.shiftFlags op _
  | res k x | set k x => exact h.update x _ fun _ _ hr => hr
  | indexShift op copy => exact h.updateIndexed copy _ fun _ _ hr => hr.shiftFlags op _
  | indexRes k copy | indexSet k copy => exact h.updateIndexed copy _ fun _ _ hr => hr
  | daa => exact h.decimalAdjust
  | cpl => exact h.complement
  | scf | ccf => exact h.setFlags _
  | rlca | rrca | rla | rra => exact h.rotateA _
  | addHl p => exact h.addIndex _ _
  | adcHl p => exact h.addWithCarry _
  | sbcHl p => exact h.subWithCarry _
  | neg => exact h.negate
  | loadAI | loadAR => exact h.loadSpecial _ _
  | rrd | rld => exact digitFlags (h.of_sameFlags ⟨rfl, rfl⟩)
  | inC dst => exact h.inputByC dst
  | block op increment repeats => exact h.block op increment repeats
  -- Exchanges and writes of pairs leave out the bits that do not exist.
  | exAf => exact exchangeAf _
  | exx => exact h.exchangeAll
  | exSpHl => exact h.of_sameFlags (SameFlags.setIndex s.cpu.regs _ _)
  | inc16 p | dec16 p => exact h.setModePair _ p _
  | pop p => exact (h.of_sameFlags (q := s.drop.cpu.regs) ⟨rfl, rfl⟩).setModePair _ p _
  | loadPairImm p | loadPairAbs p =>
    exact (h.of_sameFlags (.skipWord s)).setModePair _ p _
  | loadHlAbs =>
    exact (h.of_sameFlags (.skipWord s)).setModePair _ .hl _
  -- All others leave the flags alone.
  | load dst src =>
    exact h.of_sameFlags ((SameFlags.setOperandIn _ _ dst _).trans
      ((SameFlags.aim _ src).trans (.aim s dst)))
  | loadImm dst =>
    exact h.of_sameFlags ((SameFlags.setOperandIn _ _ dst _).trans (.aim s dst))
  | djnz =>
    exact h.of_sameFlags ((SameFlags.chargeIf _ _ _).trans ((SameFlags.jumpRelative _ _).trans
      (by exact ⟨rfl, rfl⟩)))
  | jr => exact h.of_sameFlags (.jumpRelative s true)
  | jp => exact h.of_sameFlags (.jumpAbsolute s true)
  | call => exact h.of_sameFlags (.callIf s true)
  | jrIf cc => exact h.of_sameFlags ((SameFlags.chargeIf _ _ _).trans (.jumpRelative s _))
  | jpIf cc => exact h.of_sameFlags ((SameFlags.chargeIf _ _ _).trans (.jumpAbsolute s _))
  | callIf cc => exact h.of_sameFlags ((SameFlags.chargeIf _ _ _).trans (.callIf s _))
  | retIf cc => exact h.of_sameFlags ((SameFlags.chargeIf _ _ _).trans (.returnIf s _))
  | _ => exact h.of_sameFlags ⟨rfl, rfl⟩

/-! ### Calls -/

omit [Bus β] in
/-- Fetching leaves the flags alone. -/
theorem of_fetchedFrom {t : Board β} (h : s.cpu.regs.Tidy) (ht : t.FetchedFrom s) :
    t.cpu.regs.Tidy := by
  obtain ⟨pc, r, bytes, m, a, rfl⟩ := ht
  exact h.of_sameFlags ⟨rfl, rfl⟩

theorem step (h : s.cpu.regs.Tidy) : s.step.board.cpu.regs.Tidy := by
  rcases Bool.eq_false_or_eq_true s.cpu.halted with hhalted | hrun
  · rw [Board.step, if_pos hhalted]
    exact h.of_sameFlags ⟨rfl, rfl⟩
  · have hfound : s.found.board.cpu.regs.Tidy :=
      of_fetchedFrom (s := s.started.begin) h (Board.fetchedFrom_decoded _)
    rw [Board.step_eq_execute hrun]
    exact hfound.execute _

theorem handleInterrupts (h : s.cpu.regs.Tidy) : s.handleInterrupts.2.cpu.regs.Tidy := by
  rw [Board.handleInterrupts]
  dsimp only
  split
  · exact h.of_sameFlags ⟨rfl, rfl⟩
  · split
    · exact h.of_sameFlags ⟨rfl, rfl⟩
    · exact h

end Registers.Tidy

/-- What a driver does in one call, which may be to change registers. -/
inductive Call (β : Type)
  /-- Executes an instruction, or lets a halted processor wait. -/
  | step
  /-- Gives the processor the occasion to accept an interrupt. -/
  | interrupt
  | reset
  /-- Changes the surroundings, as devices do when time passes. -/
  | drive (f : β → β)
  | setFlag (x : Flag) (on : Bool)
  | clearFlags
  | setPair (p : Pair) (w : UInt16)
  | exchangeAf
  | exchangeAll

namespace Board

variable {β : Type}

/-- The board after power-on. -/
def powerOn (bus : β) : Board β where
  cpu := .create
  bus := bus

variable [Bus β]

/-- The board after one call. -/
def perform (s : Board β) : Call β → Board β
  | .step => s.step.board
  | .interrupt => s.handleInterrupts.2
  | .reset => { s with cpu := s.cpu.reset }
  | .drive f => { s with bus := f s.bus }
  | .setFlag x on => s.mapRegs (·.setFlag x on)
  | .clearFlags => s.mapRegs (·.clearFlags)
  | .setPair p w => s.mapRegs (·.setPair p w)
  | .exchangeAf => s.mapRegs (·.exchangeAf)
  | .exchangeAll => s.mapRegs (·.exchangeAll)

/-- The board after a sequence of calls. -/
def performAll (s : Board β) (calls : List (Call β)) : Board β :=
  calls.foldl perform s

end Board

namespace Registers.Tidy

variable {β : Type} [Bus β] {s : Board β}

theorem perform (h : s.cpu.regs.Tidy) (c : Call β) : (s.perform c).cpu.regs.Tidy := by
  cases c with
  | step => exact h.step
  | interrupt => exact h.handleInterrupts
  | reset => exact tidy_resetRegisters
  | drive f => exact h
  | setFlag x on => exact h.setFlag x on
  | clearFlags => exact h.clearFlags
  | setPair p w => exact h.setPair p w
  | exchangeAf => exact exchangeAf _
  | exchangeAll => exact h.exchangeAll

/-- A sequence of calls keeps the registers tidy. -/
theorem performAll (h : s.cpu.regs.Tidy) (calls : List (Call β)) :
    (s.performAll calls).cpu.regs.Tidy :=
  List.foldlRecOn (motive := fun t : Board β => t.cpu.regs.Tidy) calls Board.perform h
    fun _ ht c _ => ht.perform c

end Registers.Tidy

/-! ### Pushing the flags -/

namespace Board

variable {β : Type} [Bus β] {s : Board β}

/-- With tidy registers, a push of the pair `AF` stores the accumulator and the flag register as
they are. -/
theorem bus_step_of_pushAf (h : s.cpu.regs.Tidy)
    {m : IndexMode} (hpush : s.step.executed = some (m, .push .af)) :
    s.step.board.bus =
      write (write s.bus (s.cpu.regs.sp - 1) s.cpu.regs.a) (s.cpu.regs.sp - 2) s.cpu.regs.f := by
  have hrun := halted_of_executed hpush
  rw [executed_of_running hrun] at hpush
  have hi : s.found.instruction = .push .af := congrArg Prod.snd (Option.some.inj hpush)
  obtain ⟨pc, r, bytes, m', a, hboard⟩ := s.started.begin.fetchedFrom_decoded
  calc s.step.board.bus
      = (s.found.board.execute (.push .af)).bus := by rw [step_eq_execute hrun, ← hi]; rfl
    _ = pushWord s.bus s.cpu.regs.sp (s.cpu.regs.pair .af) := by rw [found, hboard]; rfl
    _ = write (write s.bus (s.cpu.regs.sp - 1) s.cpu.regs.a) (s.cpu.regs.sp - 2) s.cpu.regs.f := by
      rw [h.af, pushWord, hiByte_word, loByte_word]

/-- The codes of a push of the pair `AF`. An index prefix in front of it has no effect. -/
def pushAfCodes : List (List UInt8) := [[0xF5], [0xDD, 0xF5], [0xFD, 0xF5]]

theorem executed_of_pushAf (hrun : s.cpu.halted = false) {code : List UInt8}
    (h : code ∈ pushAfCodes) (hcode : s.HasCode code) :
    ∃ m, s.step.executed = some (m, .push .af) := by
  have hprefixed {m : IndexMode} {b : UInt8} (hm : m.IsPrefix b) (hcode : s.HasCode [b, 0xF5]) :
      s.step.executed.map Prod.snd = some (.push .af) := by
    have hop : s.load (s.cpu.regs.pc + 1) = 0xF5 := hcode 1 0xF5 rfl
    have hnext : (s.pastPrefix m).nextByte = 0xF5 := by cases m <;> exact hop
    have hplain := step_of_plain (s := s.pastPrefix m) hrun hnext (by decide)
    have hbehind := (step_behind hrun (hcode.nextByte ▸ hm) hop (by decide) rfl).1
      (by decide) (by decide)
    rw [hbehind.instruction, hplain.1]
    rfl
  have hpush : s.step.executed.map Prod.snd = some (.push .af) := by
    obtain rfl | rfl | rfl : code = [0xF5] ∨ code = [0xDD, 0xF5] ∨ code = [0xFD, 0xF5] := by
      simpa [pushAfCodes] using h
    · rw [(step_of_plain hrun hcode.nextByte (by decide)).1]
      rfl
    · exact hprefixed (.inl ⟨rfl, rfl⟩) hcode
    · exact hprefixed (.inr ⟨rfl, rfl⟩) hcode
  obtain ⟨⟨m, i⟩, hexecuted, hi⟩ := Option.map_eq_some_iff.1 hpush
  obtain rfl : i = .push .af := hi
  exact ⟨m, hexecuted⟩

/-- The flag registers are seen as they are: they have no bits that do not exist, the pair `AF`
shows the first one, and a push stores it. -/
structure ShowsFlags (s : Board β) : Prop where
  unused : s.cpu.regs.f &&& unusedFlagBits = 0
  unusedAlt : s.cpu.regs.alt.f &&& unusedFlagBits = 0
  pair : s.cpu.regs.pair .af = word s.cpu.regs.a s.cpu.regs.f
  push : ∀ m, s.step.executed = some (m, .push .af) → s.step.board.bus =
    write (write s.bus (s.cpu.regs.sp - 1) s.cpu.regs.a) (s.cpu.regs.sp - 2) s.cpu.regs.f
  /-- In front of a code of a push, this is what a step does unless the processor is halted. -/
  pushCode : ∀ code ∈ pushAfCodes, s.HasCode code → s.cpu.halted = false →
    (∃ m, s.step.executed = some (m, .push .af)) ∧ s.step.board.bus =
      write (write s.bus (s.cpu.regs.sp - 1) s.cpu.regs.a) (s.cpu.regs.sp - 2) s.cpu.regs.f

theorem showsFlags_performAll (bus : β) (calls : List (Call β)) :
    ((powerOn bus).performAll calls).ShowsFlags := by
  have htidy : ((powerOn bus).performAll calls).cpu.regs.Tidy :=
    Registers.Tidy.performAll (s := powerOn bus) Registers.tidy_resetRegisters calls
  exact {
    unused := htidy.f
    unusedAlt := htidy.alt
    pair := htidy.af
    push := fun _ => bus_step_of_pushAf htidy
    pushCode := fun _ h hcode hrun =>
      have ⟨m, hpush⟩ := executed_of_pushAf hrun h hcode
      ⟨⟨m, hpush⟩, bus_step_of_pushAf htidy hpush⟩ }

end Board

end EightBit.Z80
