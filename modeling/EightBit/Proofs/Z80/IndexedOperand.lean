import EightBit.Proofs.Records
import EightBit.Proofs.Z80.Length
import EightBit.Proofs.Z80.MemoryOperand

/-!
# Indexed operands

Behind an index prefix an instruction with a byte operand in memory finds it at the index register
plus a signed displacement. The displacement is fetched while the instruction executes, or by the
decoder where `CB` follows the prefix, but in either case once. Apart from that the instruction does
to the byte what it does without the prefix to the byte at `HL`.

## Main definitions

* `IndexedForm`: the instructions.
* `Board.StepsIndexed`: what a step does.

## Main results

* `Board.step_eq_indexed`: what the decoder hands over.
* `Board.step_indexed`: a step.
-/

namespace EightBit.Z80

/-- What an instruction with an indexed operand costs, with its prefix. -/
def Instruction.indexedCycles : Instruction → Nat
  | inc8 _ | dec8 _ | indexShift .. | indexRes .. | indexSet .. => 23
  | indexBit _ => 20
  | _ => 19

theorem Instruction.unindexed_of_not_indexed {i : Instruction} (h : i.isIndexed = false) :
    i.unindexed = i := by
  cases i <;> first | rfl | exact absurd h (by simp [isIndexed])

theorem Instruction.hasImmediate_of_isIndexed {i : Instruction} (h : i.isIndexed = true) :
    i.hasImmediate = false := by
  cases i <;> first | rfl | exact absurd h (by simp [isIndexed])

/-- An instruction behind an index prefix, by its opcode or by the one behind `CB`. -/
inductive IndexedForm
  | direct (op : UInt8)
  | bits (op : UInt8)

namespace IndexedForm

/-- The instruction that the decoder finds. -/
def instruction : IndexedForm → Instruction
  | direct op => (Decode.primary op).instruction
  | bits op => (Decode.indexCb op).instruction

/-- The instruction has an operand in memory. -/
def HasOperand : IndexedForm → Prop
  | direct op => (Decode.primary op).instruction.hasMemoryOperand = true
  | bits _ => True

/-- The bytes that lead to the operand: the prefix, the opcode and the displacement. -/
def operandCode (b d : UInt8) : IndexedForm → List UInt8
  | direct op => [b, op, d]
  | bits op => [b, 0xCB, d, op]

/-- The immediate byte, if there is one. -/
def immediate (n : UInt8) (form : IndexedForm) : List UInt8 :=
  if form.instruction.hasImmediate then [n] else []

/-- All bytes of the instruction. -/
def code (b d n : UInt8) (form : IndexedForm) : List UInt8 :=
  form.operandCode b d ++ form.immediate n

/-- The bytes of the instruction that does the same to the byte at `HL`. Behind `CB` its register
field says so. -/
def plainCode (n : UInt8) (form : IndexedForm) : List UInt8 :=
  match form with
  | direct op => op :: form.immediate n
  | bits op => [0xCB, (op &&& 0xF8) ||| 6]

theorem length_code_le (b d n : UInt8) (form : IndexedForm) :
    (form.code b d n).length ≤ maxInstructionBytes := by
  rw [code, List.length_append, immediate]
  cases form with
  | direct op => split <;> simp [operandCode, maxInstructionBytes]
  | bits op =>
    have himm : (bits op).instruction.hasImmediate = false :=
      Instruction.hasImmediate_of_isIndexed (Decode.isIndexed_indexCb op)
    rw [himm]
    exact Nat.le_refl _

end IndexedForm

/-! ### The pages -/

namespace Decode

/-- The opcodes with an operand in memory: one byte, behind a prefix at the cost of an indexed
operand. -/
theorem index_of_hasMemoryOperand : ∀ op, (primary op).instruction.hasMemoryOperand = true →
    op ∉ prefixBytes ∧ (primary op).instruction.hasMemoryByte = true ∧
      (primary op).instruction.isIndexed = false ∧
      (index op).instruction = (primary op).instruction ∧
      prefixCycles + (index op).cycles = (primary op).instruction.indexedCycles :=
  forall_byte (by decide)

/-- The opcodes behind an index prefix and `CB`: each does to an indexed byte what another one does
without the prefix to the byte at `HL`. -/
theorem indexCb_eq : ∀ op,
    (indexCb op).instruction.hasMemoryByte = true ∧
      prefixCycles + (indexCb op).cycles = (indexCb op).instruction.indexedCycles ∧
      (cb ((op &&& 0xF8) ||| 6)).instruction = (indexCb op).instruction.unindexed :=
  forall_byte (by decide)

end Decode

theorem IndexedForm.hasMemoryByte (form : IndexedForm) (h : form.HasOperand) :
    form.instruction.hasMemoryByte = true := by
  cases form with
  | direct op => exact (Decode.index_of_hasMemoryOperand op h).2.1
  | bits op => exact (Decode.indexCb_eq op).1

namespace Board

variable {β : Type} [Bus β] {s t : Board β} {m : IndexMode} {form : IndexedForm} {b d n : UInt8}
  {a : UInt16}

/-- The address of an indexed operand. -/
def indexedAddress (s : Board β) (m : IndexMode) (d : UInt8) : UInt16 :=
  s.cpu.regs.index m + displacement d

/-- The board on which an instruction has found its indexed operand. -/
def atOperand (s : Board β) (m : IndexMode) (d : UInt8) (code : List UInt8) : Board β :=
  { s with
    cpu := { s.cpu with
      regs := { s.cpu.regs with
        pc := s.cpu.regs.pc + UInt16.ofNat code.length
        r := s.cpu.regs.refresh.refresh.r }
      eiShadow := false
      mode := m
      indexAddress := some (s.indexedAddress m d)
      extraCycles := 0
      instructionAddress := s.cpu.regs.pc
      fetched := code.foldl InstructionBytes.push s.cpu.fetched.clear } }

/-- An instruction fetches the displacement of its operand first. -/
theorem execute_aim {i : Instruction} (h : (s.aim .atHl).PointsTo a)
    (hi : i.hasMemoryByte = true) (hx : i.isIndexed = false) :
    s.execute i = (s.aim .atHl).execute i := by
  have haim := h.aim
  rw [execute.eq_def, execute.eq_def]
  cases i with
  | load dst src =>
    have hboth : (s.aim dst).aim src = s.aim .atHl := by
      by_cases hdst : dst.isIndirect = true
      · obtain rfl := Reg8.eq_atHl hdst
        exact haim src
      · have hsrc : src.isIndirect = true := by simpa [Instruction.hasMemoryByte, hdst] using hi
        rw [s.aim_of_direct (Bool.eq_false_iff.2 hdst), Reg8.eq_atHl hsrc]
    simp only [loadMode_of_hasMemoryByte hi, hboth, haim]
  | loadImm x | inc8 x | dec8 x =>
    obtain rfl := Reg8.eq_atHl hi
    simp only [update, haim]
  | alu op x | shift op x =>
    obtain rfl := Reg8.eq_atHl hi
    simp only [update, haim]
  | bit k x | res k x | set k x =>
    obtain rfl := Reg8.eq_atHl hi
    simp only [update, haim]
  | indexShift op copy | indexRes k copy | indexSet k copy | indexBit k =>
    exact absurd hx.symm Bool.false_ne_true
  | _ => exact absurd hi Bool.false_ne_true

/-! ### Decoding -/

/-- An index prefix in front of an opcode without a further prefix leads to that opcode. -/
theorem decoded_indexed {op : UInt8} (hm : m.IsPrefix s.nextByte)
    (hop : s.load (s.cpu.regs.pc + 1) = op)
    (hd : (Decode.primary op).instruction.hasMemoryOperand = true) :
    s.started.begin.decoded = ⟨(Decode.primary op).instruction.indexedCycles,
      (Decode.primary op).instruction, s.pastOpcodes m⟩ := by
  obtain ⟨hplain, -, -, hinstruction, hcycles⟩ := Decode.index_of_hasMemoryOperand op hd
  have hindex : isIndexPrefix (s.load (s.cpu.regs.pc + 1)) = false := by
    rw [hop]
    simp_all [isIndexPrefix, prefixBytes]
  have hfound : s.started.begin.decodeFirst.lookUp Decode.index
      (s.started.begin.skipOpcode.setMode m) = ⟨(Decode.primary op).instruction.indexedCycles,
        (Decode.primary op).instruction, s.pastOpcodes m⟩ := by
    have hnext : (s.started.begin.skipOpcode.setMode m).nextByte = op := hop
    rw [Decoding.lookUp, hnext, s.started.cycles_prefixed hm, hcycles, hinstruction, pastOpcodes]
  rw [decoded, maxLookUps, Decoding.resolve, s.started.next?_prefixed hm hindex, hfound]
  exact Decoding.resolve_of_not_prefix (Decode.isPrefix_primary op hplain) 1

/-- An index prefix in front of `CB` leads to the opcode behind the displacement. -/
theorem decoded_indexedCb {op : UInt8} (hm : m.IsPrefix s.nextByte)
    (hcb : s.load (s.cpu.regs.pc + 1) = 0xCB) (hop : s.load (s.cpu.regs.pc + 3) = op) :
    s.started.begin.decoded = ⟨(Decode.indexCb op).instruction.indexedCycles,
      (Decode.indexCb op).instruction, (s.pastOpcodes m).skipIndexCb⟩ := by
  obtain ⟨-, hcycles, -⟩ := Decode.indexCb_eq op
  have hindex : isIndexPrefix (s.load (s.cpu.regs.pc + 1)) = false := by
    rw [hcb]
    decide
  have hfound : s.started.begin.decodeFirst.lookUp Decode.index
      (s.started.begin.skipOpcode.setMode m) = ⟨prefixCycles, .prefixIndexCb, s.pastOpcodes m⟩ := by
    have hnext : (s.started.begin.skipOpcode.setMode m).nextByte = 0xCB := hcb
    have hentry : Decode.index 0xCB = ⟨0, .prefixIndexCb⟩ := rfl
    rw [Decoding.lookUp, hnext, s.started.cycles_prefixed hm, hentry, pastOpcodes]
    rfl
  have hnext : (s.pastOpcodes m).skip.nextByte = op := by
    have hpc : s.cpu.regs.pc + 2 + 1 = s.cpu.regs.pc + 3 := UInt16.add_assoc _ 2 1
    rw [pastOpcodes_eq, nextByte, pc_skip, hpc]
    exact hop
  rw [decoded, maxLookUps, Decoding.resolve, s.started.next?_prefixed hm hindex, hfound]
  simp only [Decoding.resolve, Decoding.next?, hnext, hcycles]

/-! ### Finding the operand -/

omit [Bus β] in
theorem pointsTo_atOperand (hm : m ≠ .hl) (code : List UInt8) :
    (s.atOperand m d code).PointsTo (s.indexedAddress m d) :=
  .inr ⟨hm, rfl⟩

variable {op : UInt8}

/-- Without `CB`, the displacement is fetched when the operand is used first. -/
theorem aim_pastOpcodes (hm : m ≠ .hl) (hcode : s.HasCode [b, op, d]) :
    (s.pastOpcodes m).aim .atHl = s.atOperand m d [b, op, d] := by
  have hop : s.load (s.cpu.regs.pc + 1) = op := hcode 1 op rfl
  have hd : s.load (s.cpu.regs.pc + 2) = d := hcode 2 d rfl
  have hpc : s.cpu.regs.pc + 2 + 1 = s.cpu.regs.pc + 3 := UInt16.add_assoc _ 2 1
  rw [pastOpcodes_eq, hcode.nextByte, hop, aim, if_pos (by simpa [Reg8.isIndirect] using hm)]
  simp only [Board.nextByte, load, skip] at hd ⊢
  simp only [hd, hpc]
  rfl

/-- Behind `CB`, the decoder fetches it. -/
theorem skipIndexCb_pastOpcodes (hcode : s.HasCode [b, 0xCB, d, op]) :
    (s.pastOpcodes m).skipIndexCb = s.atOperand m d [b, 0xCB, d, op] := by
  have hcb : s.load (s.cpu.regs.pc + 1) = 0xCB := hcode 1 0xCB rfl
  have hd : s.load (s.cpu.regs.pc + 2) = d := hcode 2 d rfl
  have hop : s.load (s.cpu.regs.pc + 3) = op := hcode 3 op rfl
  have hpc : s.cpu.regs.pc + 2 + 1 = s.cpu.regs.pc + 3 := UInt16.add_assoc _ 2 1
  have hpc' : s.cpu.regs.pc + 3 + 1 = s.cpu.regs.pc + 4 := UInt16.add_assoc _ 3 1
  rw [pastOpcodes_eq, hcode.nextByte, hcb, skipIndexCb]
  simp only [Board.nextByte, load, skip] at hd hop ⊢
  simp only [hd, hop, hpc, hpc']
  rfl

theorem skip_atOperand (code : List UInt8) :
    (s.atOperand m d code).skip =
      s.atOperand m d (code ++ [s.load (s.cpu.regs.pc + UInt16.ofNat code.length)]) := by
  have hpc : s.cpu.regs.pc + UInt16.ofNat (code ++ [s.load
      (s.cpu.regs.pc + UInt16.ofNat code.length)]).length =
        s.cpu.regs.pc + UInt16.ofNat code.length + 1 := by
    rw [List.length_append, UInt16.ofNat_add, ← UInt16.add_assoc]
    rfl
  rw [atOperand.eq_def s m d (_ ++ _), hpc, List.foldl_append]
  rfl

/-- The immediate byte follows the operand. -/
theorem pastImmediate_atOperand (hcode : s.HasCode (form.code b d n)) :
    (s.atOperand m d (form.operandCode b d)).pastImmediate form.instruction =
      s.atOperand m d (form.code b d n) := by
  rw [pastImmediate, IndexedForm.code, IndexedForm.immediate]
  split
  next himm =>
    have hn : s.load (s.cpu.regs.pc + UInt16.ofNat (form.operandCode b d).length) = n :=
      hcode _ n (by simp [IndexedForm.code, IndexedForm.immediate, himm])
    rw [skip_atOperand, hn]
  next => rw [List.append_nil]

/-- What an instruction does to its indexed operand. -/
theorem execute_atOperand (form : IndexedForm) (hm : m ≠ .hl)
    (hi : form.instruction.hasMemoryByte = true) (hcode : s.HasCode (form.code b d n)) :
    (s.atOperand m d (form.operandCode b d)).execute form.instruction =
      (s.atOperand m d (form.code b d n)).finish (s.indexedAddress m d)
        (form.instruction.effect n (s.load (s.indexedAddress m d))
          (s.atOperand m d (form.code b d n)).cpu.regs) := by
  rw [execute_eq_effect (pointsTo_atOperand hm _) hi, pastImmediate_atOperand hcode]
  refine congrArg _ ?_
  cases himm : form.instruction.hasImmediate with
  | false => exact Instruction.effect_immediate _ _ _ himm n
  | true =>
    have hn : s.load (s.cpu.regs.pc + UInt16.ofNat (form.operandCode b d).length) = n :=
      hcode _ n (by simp [IndexedForm.code, IndexedForm.immediate, himm])
    exact congrArg (Instruction.effect · _ _ _) hn

/-- A step finds the operand and does to it what the instruction says. -/
theorem step_eq_indexed (hrun : s.cpu.halted = false) (hm : m.IsPrefix b)
    (hform : form.HasOperand) (hcode : s.HasCode (form.code b d n)) :
    s.step = ⟨form.instruction.indexedCycles,
      ((s.atOperand m d (form.code b d n)).finish (s.indexedAddress m d)
        (form.instruction.effect n (s.load (s.indexedAddress m d))
          (s.atOperand m d (form.code b d n)).cpu.regs)).settle,
      some (m, form.instruction)⟩ := by
  have hne : m ≠ .hl := by
    obtain ⟨rfl, -⟩ | ⟨rfl, -⟩ := hm <;> exact nofun
  rw [step_eq_execute hrun]
  cases form with
  | direct op =>
    obtain ⟨-, hi, hx, -⟩ := Decode.index_of_hasMemoryOperand op hform
    have hoperand := hcode.of_append
    have haim := aim_pastOpcodes hne hoperand
    rw [decoded_indexed (hoperand.nextByte ▸ hm) (hoperand 1 op rfl) hform, Decoding.execute,
      execute_aim (haim ▸ pointsTo_atOperand hne _) hi hx, haim]
    have hexecute := execute_atOperand (.direct op) hne hi hcode
    dsimp only [IndexedForm.instruction, IndexedForm.operandCode] at hexecute ⊢
    rw [hexecute]
    rfl
  | bits op =>
    obtain ⟨hi, -⟩ := Decode.indexCb_eq op
    have hoperand := hcode.of_append
    have hexecute := execute_atOperand (.bits op) hne hi hcode
    rw [decoded_indexedCb (hoperand.nextByte ▸ hm) (hoperand 1 0xCB rfl) (hoperand 3 op rfl),
      Decoding.execute, skipIndexCb_pastOpcodes hoperand]
    dsimp only [IndexedForm.instruction, IndexedForm.operandCode] at hexecute ⊢
    rw [hexecute]
    rfl

/-! ### The byte at `HL` -/

/-- The board `t` is about to do to the byte at `HL` what an instruction does to its operand at `a`:
its registers are those of `s` but for `HL`, and it has the same byte at that address. -/
structure Mirrors (form : IndexedForm) (n : UInt8) (a : UInt16) (s t : Board β) : Prop where
  running : t.cpu.halted = false
  code : t.HasCode (form.plainCode n)
  regs : t.cpu.regs = { s.cpu.regs.setHl a with pc := t.cpu.regs.pc, r := t.cpu.regs.r }
  operand : t.load a = s.load a

/-- The board on which an instruction without a prefix finds its operand. -/
def atHl (t : Board β) (form : IndexedForm) : Board β :=
  match form with
  | .direct _ => t.started.begin.skipOpcode
  | .bits _ => t.started.begin.skipOpcode.skipOpcode

theorem step_eq_plain (hrun : t.cpu.halted = false) (hform : form.HasOperand)
    (hcode : t.HasCode (form.plainCode n)) :
    t.step.board = ((t.atHl form).execute form.instruction.unindexed).settle := by
  cases form with
  | direct op =>
    obtain ⟨hplain, -, hx, -⟩ := Decode.index_of_hasMemoryOperand op hform
    have hsame := Instruction.unindexed_of_not_indexed hx
    rw [(step_of_plain hrun (hcode.nextByte) hplain).2]
    exact congrArg (fun i => ((t.started.begin.skipOpcode).execute i).settle) hsame.symm
  | bits op =>
    obtain ⟨-, -, hsame⟩ := Decode.indexCb_eq op
    have hnext : t.started.begin.skipOpcode.nextByte = (op &&& 0xF8) ||| 6 := hcode 1 _ rfl
    rw [step_eq_execute hrun, decoded_of_cb (s := t.started.begin) hcode.nextByte,
      Decoding.lookUp, hnext, hsame]
    rfl

theorem atHl_eq (t : Board β) (form : IndexedForm) :
    ∃ pc r bytes, t.atHl form = { t with
      cpu := { t.cpu with
        regs := { t.cpu.regs with pc := pc, r := r }
        eiShadow := false
        mode := .hl
        indexAddress := none
        extraCycles := 0
        instructionAddress := t.cpu.regs.pc
        fetched := bytes } } := by
  cases form <;> simp only [atHl, started, begin, skipOpcode_eq] <;> exact ⟨_, _, _, rfl⟩

/-- A step without a prefix does to the byte at `HL` what the instruction says. -/
theorem step_mirrored (hform : form.HasOperand) (ht : Mirrors form n a s t) :
    let e := form.instruction.unindexed.effect n (s.load a) t.cpu.regs
    t.step.board.cpu.regs.a = e.1.a ∧ t.step.board.cpu.regs.f = e.1.f ∧
      t.step.board.bus = Bus.putAt t.bus a e.2 := by
  have hi : form.instruction.unindexed.hasMemoryByte = true :=
    Instruction.hasMemoryByte_unindexed (form.hasMemoryByte hform)
  have hn : form.instruction.unindexed.hasImmediate = true → (t.atHl form).nextByte = n := by
    rw [Instruction.hasImmediate_unindexed]
    intro himm
    cases form with
    | direct op => exact ht.code 1 n (by simp [IndexedForm.plainCode, IndexedForm.immediate, himm])
    | bits op =>
      have hindexed := Instruction.hasImmediate_of_isIndexed (Decode.isIndexed_indexCb op)
      exact absurd (hindexed.symm.trans himm) Bool.false_ne_true
  have hhl : t.cpu.regs.hl = a := by
    rw [ht.regs]
    exact word_hiByte_loByte a
  obtain ⟨pc, r, bytes, hat⟩ := t.atHl_eq form
  have hpoints : (t.atHl form).PointsTo a := by
    rw [hat]
    exact .inl ⟨rfl, hhl⟩
  have hload : (t.atHl form).load a = s.load a := by
    rw [hat]
    exact ht.operand
  have hbus : (t.atHl form).bus = t.bus := by rw [hat]
  obtain ⟨hregs, hexecuted⟩ := execute_effect (q := t.cpu.regs) hpoints hi hn (by rw [hat])
  rw [hload] at hregs hexecuted
  rw [step_eq_plain ht.running hform ht.code]
  refine ⟨?_, ?_, ?_⟩
  · rw [settle, hregs]
  · rw [settle, hregs]
  · rw [← hbus]
    exact hexecuted

/-! ### A step -/

/-- What an instruction makes of the registers and of its indexed operand. -/
def indexedEffect (s : Board β) (m : IndexMode) (form : IndexedForm) (d n : UInt8) :
    Registers × Option UInt8 :=
  form.instruction.effect n (s.load (s.indexedAddress m d)) s.cpu.regs

/-- A step executes an instruction behind the prefix `b`, with an operand at a displacement `d` and
perhaps the immediate byte `n`. -/
structure StepsIndexed (m : IndexMode) (form : IndexedForm) (b d n : UInt8) (s : Board β) :
    Prop where
  executed : s.step.executed = some (m, form.instruction)
  cycles : s.step.cycles = form.instruction.indexedCycles
  /-- Each byte of the instruction is fetched once. -/
  fetched : s.step.board.cpu.fetched.toList = form.code b d n
  regs : s.step.board.cpu.regs =
    { (s.indexedEffect m form d n).1 with
      pc := s.cpu.regs.pc + UInt16.ofNat (form.code b d n).length
      r := s.cpu.regs.refresh.refresh.r }
  /-- At most the operand is written. -/
  bus : s.step.board.bus =
    Bus.putAt s.bus (s.indexedAddress m d) (s.indexedEffect m form d n).2
  /-- Besides the accumulator and the flags, one register may receive the byte that was stored or
  else read. -/
  frame : s.step.board.cpu.regs =
    { { s.cpu.regs with
          a := s.step.board.cpu.regs.a
          f := s.step.board.cpu.regs.f }.copyTo form.instruction.destination
        ((s.indexedEffect m form d n).2.getD (s.load (s.indexedAddress m d))) with
      pc := s.cpu.regs.pc + UInt16.ofNat (form.code b d n).length
      r := s.cpu.regs.refresh.refresh.r }
  /-- Of the bytes in memory only the operand matters. -/
  operand : ∀ u : Board β, u.cpu = s.cpu → u.HasCode (form.code b d n) →
    u.load (s.indexedAddress m d) = s.load (s.indexedAddress m d) →
      u.step.board.cpu = s.step.board.cpu ∧ u.step.board.bus =
        Bus.putAt u.bus (s.indexedAddress m d) (s.indexedEffect m form d n).2
  /-- The instruction without the prefix leaves the same accumulator, unless a copy goes there, the
  same flags, and stores the same byte, unless it is a half of `HL`. -/
  mirrored : ∀ t, Mirrors form n (s.indexedAddress m d) s t →
    s.step.board.cpu.regs.a =
        (t.step.board.cpu.regs.copyTo form.instruction.copied
          ((s.indexedEffect m form d n).2.getD (s.load (s.indexedAddress m d)))).a ∧
      s.step.board.cpu.regs.f = t.step.board.cpu.regs.f ∧
      (form.instruction.storesHalf = false → t.step.board.bus =
        Bus.putAt t.bus (s.indexedAddress m d) (s.indexedEffect m form d n).2)
  halted : s.step.board.cpu.halted = s.cpu.halted
  iff1 : s.step.board.cpu.iff1 = s.cpu.iff1
  iff2 : s.step.board.cpu.iff2 = s.cpu.iff2
  im : s.step.board.cpu.im = s.cpu.im

section

variable (hrun : s.cpu.halted = false) (hm : m.IsPrefix b) (hform : form.HasOperand)
  (hcode : s.HasCode (form.code b d n))

include hrun hm hform hcode

theorem regs_step_indexed :
    s.step.board.cpu.regs =
      { (s.indexedEffect m form d n).1 with
        pc := s.cpu.regs.pc + UInt16.ofNat (form.code b d n).length
        r := s.cpu.regs.refresh.refresh.r } := by
  rw [step_eq_indexed hrun hm hform hcode, atOperand, Instruction.effect_pc]
  rfl

/-- Another bus with the same instruction and the same operand makes the same step. -/
theorem step_indexed_congr {u : Board β} (hu : u.cpu = s.cpu)
    (hucode : u.HasCode (form.code b d n))
    (hload : u.load (s.indexedAddress m d) = s.load (s.indexedAddress m d)) :
    u.step.board.cpu = s.step.board.cpu ∧ u.step.board.bus =
      Bus.putAt u.bus (s.indexedAddress m d) (s.indexedEffect m form d n).2 := by
  obtain ⟨cpu, bus⟩ := u
  obtain rfl : cpu = s.cpu := hu
  have hustep := step_eq_indexed (s := ⟨s.cpu, bus⟩) hrun hm hform hucode
  have haddress : indexedAddress ⟨s.cpu, bus⟩ m d = s.indexedAddress m d := rfl
  rw [haddress, hload] at hustep
  rw [hustep, step_eq_indexed hrun hm hform hcode]
  refine ⟨rfl, ?_⟩
  rw [atOperand, Instruction.effect_pc]
  rfl

/-- The two steps have the same effect. -/
theorem step_indexed_mirrors {t : Board β} (ht : Mirrors form n (s.indexedAddress m d) s t) :
    s.step.board.cpu.regs.a =
        (t.step.board.cpu.regs.copyTo form.instruction.copied
          ((s.indexedEffect m form d n).2.getD (s.load (s.indexedAddress m d)))).a ∧
      s.step.board.cpu.regs.f = t.step.board.cpu.regs.f ∧
      (form.instruction.storesHalf = false → t.step.board.bus =
        Bus.putAt t.bus (s.indexedAddress m d) (s.indexedEffect m form d n).2) := by
  have hregs := regs_step_indexed hrun hm hform hcode
  have hq : t.cpu.regs = { s.cpu.regs with
      h := t.cpu.regs.h, l := t.cpu.regs.l, pc := t.cpu.regs.pc, r := t.cpu.regs.r } := by
    rw [ht.regs]
    rfl
  obtain ⟨ha, hf, hw⟩ := Instruction.effect_unindexed (n := n)
    (v := s.load (s.indexedAddress m d)) (form.hasMemoryByte hform) hq
  obtain ⟨hta, htf, htbus⟩ := step_mirrored hform ht
  refine ⟨?_, ?_, fun hhalf => ?_⟩
  · rw [hregs, Registers.a_copyTo, hta, ← Registers.a_copyTo]
    exact ha
  · rw [hregs, htf]
    exact hf
  · rw [htbus, ← hw hhalf]
    rfl

end

/-- A processor that runs executes an instruction with an indexed operand. -/
theorem step_indexed (hrun : s.cpu.halted = false) (hm : m.IsPrefix b) (hform : form.HasOperand)
    (hcode : s.HasCode (form.code b d n)) : s.StepsIndexed m form b d n := by
  have hstep := step_eq_indexed hrun hm hform hcode
  have hregs := regs_step_indexed hrun hm hform hcode
  exact {
    executed := by rw [hstep]
    cycles := by rw [hstep]
    fetched := by
      rw [hstep]
      exact (InstructionBytes.toList_foldl_push _ _).trans
        (List.take_of_length_le (form.length_code_le b d n))
    regs := hregs
    bus := (step_indexed_congr hrun hm hform hcode rfl hcode rfl).2
    frame := by
      rw [hregs]
      exact congrArg (fun q : Registers => { q with
        pc := s.cpu.regs.pc + UInt16.ofNat (form.code b d n).length
        r := s.cpu.regs.refresh.refresh.r })
        (Instruction.effect_frame _ _ _ (form.hasMemoryByte hform))
    operand := fun u hu hucode hload => step_indexed_congr hrun hm hform hcode hu hucode hload
    mirrored := fun t ht => step_indexed_mirrors hrun hm hform hcode ht
    halted := by rw [hstep]; rfl
    iff1 := by rw [hstep]; rfl
    iff2 := by rw [hstep]; rfl
    im := by rw [hstep]; rfl }

/-- `INC (IX-2)`. -/
def incIndexed : Board PortBus :=
  (codeBoard [0xDD, 0x34, 0xFE]).mapRegs ({ · with ix := 0x1000 })

/-- `INC (HL)`, with the same operand. -/
def incAtHl : Board PortBus :=
  (codeBoard [0x34]).mapRegs fun r => { r.setHl 0x0FFE with ix := 0x1000 }

theorem mirrors_incAtHl : Mirrors (.direct 0x34) 0 0x0FFE incIndexed incAtHl where
  running := rfl
  code := hasCode_codeBoard (by decide)
  regs := rfl
  operand := by
    have hload (t : Board PortBus) (f : Registers → Registers) (a : UInt16) :
        (t.mapRegs f).load a = t.load a := rfl
    rw [incIndexed, incAtHl, hload, hload, load_codeBoard (by decide), load_codeBoard (by decide)]
    rfl

theorem step_indexed_incIndexed :
    incIndexed.cpu.halted = false ∧ IndexMode.IsPrefix .ix 0xDD ∧
      (IndexedForm.direct 0x34).HasOperand ∧
      incIndexed.HasCode ((IndexedForm.direct 0x34).code 0xDD 0xFE 0) ∧
      incIndexed.StepsIndexed .ix (.direct 0x34) 0xDD 0xFE 0 ∧
      incIndexed.step.board.cpu.regs.f = incAtHl.step.board.cpu.regs.f := by
  have hcode : incIndexed.HasCode [0xDD, 0x34, 0xFE] := hasCode_codeBoard (by decide)
  have hstep : incIndexed.StepsIndexed .ix (.direct 0x34) 0xDD 0xFE 0 :=
    step_indexed rfl (.inl ⟨rfl, rfl⟩) rfl hcode
  exact ⟨rfl, .inl ⟨rfl, rfl⟩, rfl, hcode, hstep, (hstep.mirrored _ mirrors_incAtHl).2.1⟩

end Board

end EightBit.Z80
