import EightBit.Proofs.Z80.Costs

/-!
# Which instructions reach which registers

Apart from the main registers, each register of the processor is reached by few instructions: the
alternate set by the exchanges, `I` and the refresh counter by a load each, and an index register by
instructions in its mode. All other instructions leave all of these alone. This module goes through
them once.

## Main definitions

* `Registers.sheltered`: what an instruction in an index mode leaves alone.
* `Instruction.reachers`: the instructions that are there to change one of these registers.

## Main results

* `Board.sheltered_execute`: the other instructions.
* `Board.alt_execute`, `Board.i_execute`, `Board.r_execute`, `Board.spared_execute`: register by
  register.
-/

namespace EightBit.Z80

/-! ### Registers -/

namespace Registers

/-- The registers that an instruction in a mode leaves alone, unless it is there to change them: the
alternate registers, `I`, the refresh counter, and the index registers that do not stand for
`HL`. -/
def sheltered (r : Registers) (m : IndexMode) :
    AltRegisters × UInt8 × UInt8 × Option UInt16 × Option UInt16 :=
  (r.alt, r.i, r.r, if m = .ix then none else some r.ix, if m = .iy then none else some r.iy)

variable {q r : Registers} {m : IndexMode}

theorem ix_eq_of_sheltered (h : (q.sheltered m).2.2.2 = (r.sheltered m).2.2.2) (hm : m ≠ .ix) :
    q.ix = r.ix := by
  have hix := congrArg Prod.fst h
  rwa [sheltered, sheltered, if_neg hm, if_neg hm, Option.some_inj] at hix

theorem iy_eq_of_sheltered (h : (q.sheltered m).2.2.2 = (r.sheltered m).2.2.2) (hm : m ≠ .iy) :
    q.iy = r.iy := by
  have hiy := congrArg Prod.snd h
  rwa [sheltered, sheltered, if_neg hm, if_neg hm, Option.some_inj] at hiy

variable (r)

/-- What stands for `HL` is not sheltered, nor is `HL` itself. -/
theorem sheltered_setIndex {n : IndexMode} (hn : n = .hl ∨ n = m) (w : UInt16) :
    (r.setIndex n w).sheltered m = r.sheltered m := by
  rcases hn with rfl | rfl
  · cases m <;> rfl
  · cases n <;> rfl

theorem sheltered_setModePair (m : IndexMode) (p : Pair) (w : UInt16) :
    (r.setModePair m p w).sheltered m = r.sheltered m := by
  cases p with
  | hl => exact r.sheltered_setIndex (.inr rfl) w
  | _ => rfl

theorem sheltered_addIndex (m : IndexMode) (v : UInt16) :
    (r.addIndex m v).sheltered m = r.sheltered m :=
  sheltered_setIndex _ (.inr rfl) _

theorem sheltered_alu (op : AluOp) (v : UInt8) : (r.alu op v).sheltered m = r.sheltered m := by
  cases op <;> rfl

end Registers

/-! ### Instructions -/

/-- The instructions that are there to change a sheltered register. -/
def Instruction.reachers : List Instruction := [exAf, exx, loadIA, loadRA]

theorem Instruction.mem_reachers {i : Instruction} :
    i ∈ reachers ↔ i = .exAf ∨ i = .exx ∨ i = .loadIA ∨ i = .loadRA := by
  simp [reachers]

namespace Board

section

variable {β : Type}

/-- The index mode, and the registers that are left alone in it. -/
def sheltered (s : Board β) :
    IndexMode × AltRegisters × UInt8 × UInt8 × Option UInt16 × Option UInt16 :=
  (s.cpu.mode, s.cpu.regs.sheltered s.cpu.mode)

variable (s : Board β)

theorem sheltered_mapRegs {g : Registers → Registers}
    (hg : (g s.cpu.regs).sheltered s.cpu.mode = s.cpu.regs.sheltered s.cpu.mode) :
    (s.mapRegs g).sheltered = s.sheltered :=
  congrArg (Prod.mk s.cpu.mode) hg

theorem sheltered_chargeIf (taken : Bool) (n : Nat) :
    (s.chargeIf taken n).sheltered = s.sheltered := by
  cases taken <;> rfl

theorem sheltered_setPairValue (p : Pair) (w : UInt16) :
    (s.setPairValue p w).sheltered = s.sheltered :=
  s.sheltered_mapRegs (Registers.sheltered_setModePair _ _ p w)

variable [Bus β]

theorem sheltered_aim (x : Reg8) : (s.aim x).sheltered = s.sheltered := by
  rw [aim]
  split <;> rfl

theorem mode_aim (x : Reg8) : (s.aim x).cpu.mode = s.cpu.mode :=
  congrArg Prod.fst (s.sheltered_aim x)

theorem sheltered_setOperandIn {m : IndexMode} (hm : m = .hl ∨ m = s.cpu.mode) (x : Reg8)
    (v : UInt8) : (s.setOperandIn m x v).sheltered = s.sheltered := by
  cases x with
  | h | l => exact s.sheltered_mapRegs (Registers.sheltered_setIndex _ hm _)
  | _ => rfl

theorem sheltered_jumpRelative (taken : Bool) : (s.jumpRelative taken).sheltered = s.sheltered := by
  cases taken <;> rfl

theorem sheltered_skipWord : s.skipWord.sheltered = s.sheltered := rfl

theorem sheltered_jumpAbsolute (taken : Bool) :
    (s.jumpAbsolute taken).sheltered = s.sheltered := by
  rw [← s.sheltered_skipWord]
  cases taken <;> rfl

theorem sheltered_callIf (taken : Bool) : (s.callIf taken).sheltered = s.sheltered := by
  rw [← s.sheltered_skipWord]
  cases taken <;> rfl

theorem sheltered_returnIf (taken : Bool) : (s.returnIf taken).sheltered = s.sheltered := by
  cases taken <;> rfl

theorem sheltered_update (x : Reg8) (f : Registers → UInt8 → UInt8)
    {g : Registers → UInt8 → Registers} (hg : ∀ q v m, (g q v).sheltered m = q.sheltered m) :
    (s.update x f g).sheltered = s.sheltered :=
  (sheltered_setOperandIn _ (.inr rfl) x _).trans
    ((sheltered_mapRegs _ (hg _ _ _)).trans (s.sheltered_aim x))

/-- The register that the result of an operation on an indexed byte is copied to may be `H` or
`L`. -/
theorem sheltered_updateIndexed (copy : Option Reg8) (f : Registers → UInt8 → UInt8)
    {g : Registers → UInt8 → Registers} (hg : ∀ q v m, (g q v).sheltered m = q.sheltered m) :
    (s.updateIndexed copy f g).sheltered = s.sheltered := by
  have hflags := s.sheltered_mapRegs (g := (g · (s.load s.pointer))) (hg _ _ _)
  cases copy with
  | none => exact hflags
  | some x => exact (sheltered_setOperandIn _ (.inl rfl) x _).trans hflags

theorem sheltered_inputByC (dst : Option Reg8) : (s.inputByC dst).sheltered = s.sheltered := by
  cases dst with
  | none => rfl
  | some x => exact sheltered_setOperandIn _ (.inl rfl) x _

theorem sheltered_block (op : BlockOp) (increment repeats : Bool) :
    (s.block op increment repeats).sheltered = s.sheltered := by
  have hbyte : (s.blockByte op increment).2.sheltered = s.sheltered := by cases op <;> rfl
  rw [block_eq]
  dsimp only
  split <;> exact hbyte

theorem sheltered_load (dst src : Reg8) : (s.execute (.load dst src)).sheltered = s.sheltered := by
  have hmode : ((s.aim dst).aim src).cpu.mode = s.cpu.mode :=
    (mode_aim _ src).trans (s.mode_aim dst)
  have hm : s.loadMode dst src = .hl ∨ s.loadMode dst src = ((s.aim dst).aim src).cpu.mode := by
    rw [hmode, loadMode]
    split
    · exact .inl rfl
    · exact .inr rfl
  exact (sheltered_setOperandIn _ hm dst _).trans
    ((sheltered_aim _ src).trans (s.sheltered_aim dst))

/-- All but four instructions leave the sheltered registers alone. -/
theorem sheltered_execute {i : Instruction} (hi : i ∉ Instruction.reachers) :
    (s.execute i).sheltered = s.sheltered := by
  cases i with
  | exAf | exx | loadIA | loadRA => exact absurd (by decide) hi
  -- Byte operands, which may be halves of an index register
  | load dst src => exact s.sheltered_load dst src
  | loadImm x => exact (sheltered_setOperandIn _ (.inr rfl) x _).trans (s.sheltered_aim x)
  | inc8 x | dec8 x | shift _ x | res _ x | set _ x => exact s.sheltered_update x _ fun _ _ _ => rfl
  | indexShift _ copy | indexRes _ copy | indexSet _ copy =>
    exact s.sheltered_updateIndexed copy _ fun _ _ _ => rfl
  | alu op x =>
    exact (sheltered_mapRegs _ (Registers.sheltered_alu _ op _)).trans (s.sheltered_aim x)
  | aluImm op => exact s.skip.sheltered_mapRegs (Registers.sheltered_alu _ op _)
  | bit _ x => exact (sheltered_mapRegs _ rfl).trans (s.sheltered_aim x)
  -- Words
  | loadPairImm p | loadPairAbs p =>
    exact (sheltered_setPairValue _ p _).trans s.sheltered_skipWord
  | loadHlAbs => exact (sheltered_setPairValue _ .hl _).trans s.sheltered_skipWord
  | pop p => exact s.drop.sheltered_setPairValue p _
  | inc16 p | dec16 p => exact s.sheltered_setPairValue p _
  | exSpHl => exact sheltered_mapRegs _ (Registers.sheltered_setIndex _ (.inr rfl) _)
  | addHl p => exact s.sheltered_mapRegs (Registers.sheltered_addIndex _ _ _)
  -- Transfers of control
  | djnz => exact (sheltered_chargeIf _ _ _).trans (sheltered_jumpRelative _ _)
  | jr => exact s.sheltered_jumpRelative true
  | jp => exact s.sheltered_jumpAbsolute true
  | call => exact s.sheltered_callIf true
  | ret => exact s.sheltered_returnIf true
  | jrIf cc => exact (sheltered_chargeIf _ _ _).trans (s.sheltered_jumpRelative _)
  | jpIf cc => exact (sheltered_chargeIf _ _ _).trans (s.sheltered_jumpAbsolute _)
  | callIf cc => exact (sheltered_chargeIf _ _ _).trans (s.sheltered_callIf _)
  | retIf cc => exact (sheltered_chargeIf _ _ _).trans (s.sheltered_returnIf _)
  -- Devices
  | inC dst => exact s.sheltered_inputByC dst
  | block op increment repeats => exact s.sheltered_block op increment repeats
  | _ => rfl

/-- The alternate registers are reached by the two exchanges. -/
theorem alt_execute {i : Instruction} (haf : i ≠ .exAf) (hx : i ≠ .exx) :
    (s.execute i).cpu.regs.alt = s.cpu.regs.alt := by
  by_cases hi : i ∈ Instruction.reachers
  · rcases Instruction.mem_reachers.1 hi with rfl | rfl | rfl | rfl
    · exact absurd rfl haf
    · exact absurd rfl hx
    · rfl
    · rfl
  · exact congrArg (·.2.1) (s.sheltered_execute hi)

/-- `I` is reached by `LD I,A`. -/
theorem i_execute {i : Instruction} (hia : i ≠ .loadIA) :
    (s.execute i).cpu.regs.i = s.cpu.regs.i := by
  by_cases hi : i ∈ Instruction.reachers
  · rcases Instruction.mem_reachers.1 hi with rfl | rfl | rfl | rfl
    · rfl
    · rfl
    · exact absurd rfl hia
    · rfl
  · exact congrArg (·.2.2.1) (s.sheltered_execute hi)

/-- The refresh counter is reached by `LD R,A`. -/
theorem r_execute {i : Instruction} (hra : i ≠ .loadRA) :
    (s.execute i).cpu.regs.r = s.cpu.regs.r := by
  by_cases hi : i ∈ Instruction.reachers
  · rcases Instruction.mem_reachers.1 hi with rfl | rfl | rfl | rfl
    · rfl
    · rfl
    · rfl
    · exact absurd rfl hra
  · exact congrArg (·.2.2.2.1) (s.sheltered_execute hi)

/-- An index register that does not stand for `HL` is not reached. -/
theorem spared_execute (i : Instruction) :
    ((s.execute i).cpu.regs.sheltered s.cpu.mode).2.2.2 =
      (s.cpu.regs.sheltered s.cpu.mode).2.2.2 := by
  by_cases hi : i ∈ Instruction.reachers
  · rcases Instruction.mem_reachers.1 hi with rfl | rfl | rfl | rfl <;> rfl
  · have h := s.sheltered_execute hi
    have hmode : (s.execute i).cpu.mode = s.cpu.mode := congrArg (·.1) h
    have hspared : ((s.execute i).cpu.regs.sheltered (s.execute i).cpu.mode).2.2.2 =
        (s.cpu.regs.sheltered s.cpu.mode).2.2.2 := congrArg (·.2.2.2.2) h
    rwa [hmode] at hspared

end

end Board

end EightBit.Z80
