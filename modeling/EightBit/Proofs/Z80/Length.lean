import EightBit.Proofs.Z80.Decoded

/-!
# How many bytes an instruction takes

The bytes of an instruction are its opcode with the prefixes in front of it, which the decoder
fetches, and its displacement and immediate operands, which are fetched while it executes. Which of
these there are depends on the instruction and the index mode alone. An instruction that does not
transfer control leaves the program counter behind the last of its bytes.

## Main definitions

* `Instruction.operandBytes`: the bytes fetched while an instruction executes.
* `Instruction.transfers`: the instructions that may send the program counter elsewhere.
* `Board.found`, `Board.length`: what a step finds at the program counter, and its bytes.

## Main results

* `Board.pc_execute`: where the program counter is after an instruction that does not transfer
  control.
* `Board.pc_step`: where it is after a step that does not.
-/

namespace EightBit.Z80

namespace Instruction

/-- The displacement bytes of operands of which some are in memory. Only those of an index register
have one. -/
def displacementBytes (m : IndexMode) (indirect : Bool) : Nat :=
  if indirect && m != .hl then 1 else 0

/-- The bytes that an instruction fetches while it executes in a mode: displacements and immediate
operands. -/
def operandBytes (m : IndexMode) : Instruction → Nat
  | load dst src => displacementBytes m (dst.isIndirect || src.isIndirect)
  | loadImm x => displacementBytes m x.isIndirect + 1
  | inc8 x | dec8 x | alu _ x => displacementBytes m x.isIndirect
  | shift _ x | bit _ x | res _ x | set _ x => displacementBytes m x.isIndirect
  | aluImm _ | djnz | jr | jrIf _ | outImm | inImm => 1
  | loadPairImm _ | storeAbs | loadAbs => 2
  | storeHlAbs | loadHlAbs | storePairAbs _ | loadPairAbs _ => 2
  | jp | jpIf _ | call | callIf _ => 2
  | _ => 0

/-- Whether the instruction may send the program counter elsewhere. -/
def transfers : Instruction → Bool
  | djnz | jr | jrIf _ | jp | jpIf _ | jpHl | call | callIf _ | ret | retIf _ | rst _ => true
  | retn | reti => true
  | block _ _ repeats => repeats
  | _ => false

theorem displacementBytes_le (m : IndexMode) (indirect : Bool) :
    displacementBytes m indirect ≤ 1 := by
  rw [displacementBytes]
  split <;> omega

theorem operandBytes_le (m : IndexMode) (i : Instruction) : i.operandBytes m ≤ 2 := by
  have hd (indirect : Bool) : displacementBytes m indirect ≤ 2 :=
    Nat.le_succ_of_le (displacementBytes_le m indirect)
  cases i with
  | load dst src => exact hd _
  | loadImm x => exact Nat.succ_le_succ (displacementBytes_le m _)
  | inc8 x | dec8 x => exact hd _
  | alu op x | shift op x => exact hd _
  | bit k x | res k x | set k x => exact hd _
  | _ => simp [operandBytes]

end Instruction

/-! ### Registers -/

namespace Registers

variable (r : Registers)

@[simp] theorem pc_setIndex (m : IndexMode) (w : UInt16) : (r.setIndex m w).pc = r.pc := by
  cases m <;> rfl

@[simp] theorem pc_setModePair (m : IndexMode) (p : Pair) (w : UInt16) :
    (r.setModePair m p w).pc = r.pc := by
  cases p with
  | hl => exact r.pc_setIndex m w
  | _ => rfl

@[simp] theorem pc_alu (op : AluOp) (v : UInt8) : (r.alu op v).pc = r.pc := by
  cases op <;> rfl

@[simp] theorem pc_addIndex (m : IndexMode) (v : UInt16) : (r.addIndex m v).pc = r.pc := by
  rw [addIndex, pc_setIndex]
  rfl

end Registers

/-! ### Executing -/

namespace Board

variable {β : Type} [Bus β] (s : Board β)

open Instruction (displacementBytes)

/-- An operand that has not been aimed at yet takes its displacement. -/
theorem pc_aim (h : s.cpu.indexAddress = none) (x : Reg8) :
    (s.aim x).cpu.regs.pc =
      s.cpu.regs.pc + UInt16.ofNat (displacementBytes s.cpu.mode x.isIndirect) := by
  rw [aim, h, displacementBytes, Option.isNone_none, Bool.and_true]
  split
  · rfl
  · exact (UInt16.add_zero _).symm

/-- Two operands take one displacement between them. -/
theorem pc_aim_aim (h : s.cpu.indexAddress = none) (dst src : Reg8) :
    ((s.aim dst).aim src).cpu.regs.pc =
      s.cpu.regs.pc +
        UInt16.ofNat (displacementBytes s.cpu.mode (dst.isIndirect || src.isIndirect)) := by
  by_cases hdst : (dst.isIndirect && s.cpu.mode != .hl) = true
  · have haim : (s.aim dst).aim src = s.aim dst := by
      simp [aim, h, hdst]
    rw [haim, s.pc_aim h, (Bool.and_eq_true_iff.1 hdst).1, Bool.true_or]
  · have haim : s.aim dst = s := by
      rw [aim, h, Option.isNone_none, Bool.and_true, if_neg hdst]
    have hsame : displacementBytes s.cpu.mode (dst.isIndirect || src.isIndirect) =
        displacementBytes s.cpu.mode src.isIndirect := by
      rw [displacementBytes, displacementBytes, Bool.and_or_distrib_right, Bool.eq_false_iff.2 hdst,
        Bool.false_or]
    rw [haim, s.pc_aim h, hsame]

@[simp] theorem pc_setOperandIn (m : IndexMode) (x : Reg8) (v : UInt8) :
    (s.setOperandIn m x v).cpu.regs.pc = s.cpu.regs.pc := by
  cases x with
  | h | l => exact Registers.pc_setIndex _ m _
  | _ => rfl

variable {s} in
theorem pc_update (h : s.cpu.indexAddress = none) (x : Reg8) (f : Registers → UInt8 → UInt8)
    (g : Registers → UInt8 → Registers) (hg : ∀ r v, (g r v).pc = r.pc) :
    (s.update x f g).cpu.regs.pc =
      s.cpu.regs.pc + UInt16.ofNat (displacementBytes s.cpu.mode x.isIndirect) := by
  rw [update, setOperand, pc_setOperandIn]
  exact (hg _ _).trans (s.pc_aim h x)

theorem pc_updateIndexed (copy : Option Reg8) (f : Registers → UInt8 → UInt8)
    (g : Registers → UInt8 → Registers) (hg : ∀ r v, (g r v).pc = r.pc) :
    (s.updateIndexed copy f g).cpu.regs.pc = s.cpu.regs.pc := by
  cases copy with
  | none => exact hg _ _
  | some x => exact (pc_setOperandIn _ _ x _).trans (hg _ _)

theorem pc_inputByC (dst : Option Reg8) : (s.inputByC dst).cpu.regs.pc = s.cpu.regs.pc := by
  cases dst with
  | none => rfl
  | some x => exact pc_setOperandIn _ _ x _

theorem pc_block (op : BlockOp) (increment : Bool) :
    (s.block op increment false).cpu.regs.pc = s.cpu.regs.pc := by
  cases op <;> rfl

variable {s}

/-- An instruction that does not transfer control moves the program counter past its operands. -/
theorem pc_execute {i : Instruction} (hi : i.transfers = false)
    (h : i.isIndexed = true ∨ s.cpu.indexAddress = none) :
    (s.execute i).cpu.regs.pc =
      s.cpu.regs.pc + UInt16.ofNat (i.operandBytes s.cpu.mode) := by
  have hzero (t : Board β) (ht : t.cpu.regs.pc = s.cpu.regs.pc) :
      t.cpu.regs.pc = s.cpu.regs.pc + UInt16.ofNat 0 := ht.trans (UInt16.add_zero _).symm
  cases i with
  -- Operands that may be in memory
  | load dst src =>
    exact (pc_setOperandIn _ _ dst _).trans (s.pc_aim_aim (h.resolve_left nofun) dst src)
  | loadImm x =>
    have haim := s.pc_aim (h.resolve_left nofun) x
    refine (pc_setOperandIn _ _ x _).trans ?_
    rw [pc_skip, haim, UInt16.add_assoc, Instruction.operandBytes, UInt16.ofNat_add]
    rfl
  | inc8 x => exact pc_update (h.resolve_left nofun) x _ _ fun _ _ => rfl
  | dec8 x => exact pc_update (h.resolve_left nofun) x _ _ fun _ _ => rfl
  | shift op x => exact pc_update (h.resolve_left nofun) x _ _ fun _ _ => rfl
  | res k x => exact pc_update (h.resolve_left nofun) x _ _ fun _ _ => rfl
  | set k x => exact pc_update (h.resolve_left nofun) x _ _ fun _ _ => rfl
  | alu op x => exact (Registers.pc_alu _ op _).trans (s.pc_aim (h.resolve_left nofun) x)
  | bit k x => exact s.pc_aim (h.resolve_left nofun) x
  | indexShift op copy => exact hzero _ (s.pc_updateIndexed copy _ _ fun _ _ => rfl)
  | indexRes k copy => exact hzero _ (s.pc_updateIndexed copy _ _ fun _ _ => rfl)
  | indexSet k copy => exact hzero _ (s.pc_updateIndexed copy _ _ fun _ _ => rfl)
  -- Immediate operands
  | loadPairImm p | loadHlAbs | loadPairAbs p =>
    exact (Registers.pc_setModePair _ _ _ _).trans (UInt16.add_assoc _ 1 1)
  | aluImm op => exact Registers.pc_alu _ op _
  | storeAbs | loadAbs | storeHlAbs | storePairAbs p => exact UInt16.add_assoc _ 1 1
  | outImm | inImm => rfl
  -- No operands that are fetched
  | inc16 p | dec16 p | pop p => exact hzero _ (Registers.pc_setModePair _ _ p _)
  | exSpHl => exact hzero _ (Registers.pc_setIndex _ _ _)
  | addHl p => exact hzero _ (Registers.pc_addIndex _ _ _)
  | inC dst => exact hzero _ (s.pc_inputByC dst)
  | block op increment repeats =>
    obtain rfl : repeats = false := hi
    exact hzero _ (s.pc_block op increment)
  | djnz | jr | jrIf | jp | jpIf | jpHl | call | callIf | ret | retIf | rst | retn | reti =>
    exact absurd hi nofun
  | _ => exact hzero _ rfl

/-! ### The instruction at the program counter -/

/-- What a step finds at the program counter. -/
def found (s : Board β) : Decoding β := s.started.begin.decoded

/-- A processor that is not halted executes it. -/
theorem executed_of_running (h : s.cpu.halted = false) :
    s.step.executed = some (s.found.board.cpu.mode, s.found.instruction) := by
  rw [step_eq_execute h]
  rfl

/-- A halted processor lets a machine cycle pass. -/
theorem step_of_halted (h : s.cpu.halted = true) :
    s.step = ⟨idleCycles, s.started.mapRegs (·.refresh), none⟩ :=
  if_pos h

/-- A step that executed something was that of a processor that is not halted. -/
theorem halted_of_executed {x : IndexMode × Instruction} (h : s.step.executed = some x) :
    s.cpu.halted = false := by
  refine Bool.eq_false_iff.2 fun hhalted => ?_
  rw [step_of_halted hhalted] at h
  exact Option.some_ne_none x h.symm

/-- What a step executed it executed on the board that the decoder handed over. -/
theorem found_of_executed {m : IndexMode} {i : Instruction} (h : s.step.executed = some (m, i)) :
    s.found.instruction = i ∧
      s.step.board.cpu.regs = (s.found.board.execute i).cpu.regs := by
  have hrun := halted_of_executed h
  rw [executed_of_running hrun] at h
  obtain rfl : s.found.instruction = i := congrArg Prod.snd (Option.some.inj h)
  refine ⟨rfl, ?_⟩
  rw [step_eq_execute hrun]
  rfl

/-- An opcode that is no prefix is executed as the page without prefixes says. -/
theorem step_of_plain {op : UInt8} (hrun : s.cpu.halted = false) (hop : s.nextByte = op)
    (h : op ∉ prefixBytes) :
    s.step.executed = some (.hl, (Decode.primary op).instruction) ∧
      s.step.board =
        (s.started.begin.skipOpcode.execute (Decode.primary op).instruction).settle := by
  subst hop
  have hfound : s.found = s.started.begin.decodeFirst := s.started.begin.decoded_plain h
  refine ⟨?_, ?_⟩
  · rw [executed_of_running hrun, hfound]
    rfl
  · rw [step_eq_execute hrun]
    change (s.found.board.execute s.found.instruction).settle = _
    rw [hfound]
    rfl

/-- An opcode that is no prefix costs what that page says, and what its execution charges. -/
theorem cycles_step_of_plain {op : UInt8} (hrun : s.cpu.halted = false) (hop : s.nextByte = op)
    (h : op ∉ prefixBytes) :
    s.step.cycles = (Decode.primary op).cycles +
      (s.started.begin.skipOpcode.execute (Decode.primary op).instruction).cpu.extraCycles := by
  subst hop
  have hfound : s.started.begin.decoded = s.started.begin.decodeFirst :=
    s.started.begin.decoded_plain h
  rw [step_eq_execute hrun, hfound]
  rfl

/-- An index prefix in front of another one is executed alone, and does nothing but to
be fetched. -/
theorem step_eq_of_startsPrefixRun (h : s.StartsPrefixRun) (hrun : s.cpu.halted = false) :
    s.step = ⟨prefixCycles, s.started.begin.skipOpcode.settle,
      some (.hl, (Decode.primary s.nextByte).instruction)⟩ := by
  have hfound : s.started.begin.decoded = s.started.begin.decodeFirst :=
    decoded_of_startsPrefixRun h
  have hentry : ∃ i, Decode.primary s.nextByte = ⟨prefixCycles, i⟩ ∧
      ∀ t : Board β, t.execute i = t := by
    obtain hb | hb : s.nextByte = 0xDD ∨ s.nextByte = 0xFD := by simpa [isIndexPrefix] using h.1
    · exact ⟨.prefixIx, by rw [hb]; rfl, fun _ => rfl⟩
    · exact ⟨.prefixIy, by rw [hb]; rfl, fun _ => rfl⟩
  obtain ⟨i, hi, hnothing⟩ := hentry
  have hfirst : s.started.begin.decodeFirst = ⟨prefixCycles, i, s.started.begin.skipOpcode⟩ :=
    congrArg (fun e => Decoding.mk e.cycles e.instruction s.started.begin.skipOpcode) hi
  rw [step_eq_execute hrun, hfound, hfirst, hi, Decoding.execute, hnothing]
  rfl

/-- The bytes of the instruction at the program counter. -/
def length (s : Board β) : UInt16 :=
  s.found.board.cpu.regs.pc - s.cpu.regs.pc +
    UInt16.ofNat (s.found.instruction.operandBytes s.found.board.cpu.mode)

/-- A step that does not transfer control leaves the program counter behind the instruction. -/
theorem pc_step (hrun : s.cpu.halted = false) (hi : s.found.instruction.transfers = false) :
    s.step.board.cpu.regs.pc = s.cpu.regs.pc + s.length := by
  have haims : s.found.AimsWhenIndexed := s.started.begin.aimsWhenIndexed_decoded rfl
  rw [length, ← UInt16.add_assoc, UInt16.add_comm s.cpu.regs.pc, UInt16.sub_add_cancel]
  rw [step_eq_execute hrun]
  exact pc_execute hi haims

end Board

end EightBit.Z80
