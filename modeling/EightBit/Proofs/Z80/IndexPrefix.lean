import EightBit.Proofs.Bits
import EightBit.Proofs.Z80.Exchange
import EightBit.Z80.PortBus

/-!
# Index prefixes

`DD` and `FD` in front of an instruction make it work with `IX` or `IY` where it works with `HL`. If
the instruction has no operand in memory this is all they do: the step is that of a processor whose
`HL` and index register are exchanged before and after, four T-cycles longer, and with one more
count of the refresh counter. `EX DE,HL` and `EXX` take no notice of the prefix.

## Main definitions

* `Instruction.hasMemoryOperand`, `Instruction.followsIndex`: what a prefix does to an instruction.
* `IndexMode.IsPrefix`: the prefix of an index register.
* `Board.pastPrefix`: the board without the prefix.
* `Stepped.Behind`: one step is another one behind a prefix.

## Main results

* `Board.execute_behind`: one instruction behind a prefix, instruction by instruction.
* `Board.decoded_prefixed`: what the decoder finds behind a prefix.
* `Board.step_behind`: a step behind a prefix.
-/

namespace EightBit.Z80

namespace Instruction

/-- Whether the byte at `HL` is an operand of the instruction. -/
def hasMemoryOperand : Instruction → Bool
  | load dst src => dst.isIndirect || src.isIndirect
  | loadImm x | inc8 x | dec8 x | alu _ x => x.isIndirect
  | shift _ x | bit _ x | res _ x | set _ x => x.isIndirect
  | rrd | rld | block .. => true
  | _ => false

/-- Whether the instruction sends the decoder to another page. -/
def isPrefix : Instruction → Bool
  | prefixCb | prefixEd | prefixIx | prefixIy | prefixIndexCb => true
  | _ => false

/-- Whether the instruction may stand behind an index prefix, has no operand in memory, and works
with the index register where it works with `HL`. -/
def followsIndex : Instruction → Bool
  | load dst src => !(dst.isIndirect || src.isIndirect)
  | loadImm x | inc8 x | dec8 x | alu _ x => !x.isIndirect
  | exx | exDeHl => false
  | prefixCb | prefixEd | prefixIx | prefixIy | prefixIndexCb => false
  -- Instructions of other pages: `ED` forgets the prefix, and behind `CB` all operands are indexed.
  | shift .. | bit .. | res .. | set .. | indexShift .. | indexBit .. | indexRes .. | indexSet .. =>
    false
  | inC .. | outC .. | sbcHl .. | adcHl .. | storePairAbs .. | loadPairAbs .. | neg | retn | reti =>
    false
  | im .. | loadIA | loadRA | loadAI | loadAR | rrd | rld | block .. | invalid .. => false
  | _ => true

end Instruction

/-- Whether a byte is the prefix that puts an index register in the place of `HL`. -/
def IndexMode.IsPrefix (m : IndexMode) (b : UInt8) : Prop :=
  m = .ix ∧ b = 0xDD ∨ m = .iy ∧ b = 0xFD

/-- What an index prefix costs. -/
def prefixCycles : Nat := 4

/-- The opcodes that send the decoder to another page. -/
def prefixBytes : List UInt8 := [0xCB, 0xDD, 0xED, 0xFD]

/-! ### The page behind an index prefix -/

namespace Decode

theorem indexCost_of_direct {i : Instruction} (h : i.hasMemoryOperand = false) :
    indexCost i = 0 := by
  cases i <;> simp_all [indexCost, Instruction.hasMemoryOperand]

theorem isPrefix_primary :
    ∀ op, op ∉ prefixBytes → (primary op).instruction.isPrefix = false :=
  forall_byte (by decide)

/-- Without a memory operand, the instruction of an opcode other than a prefix, `EX DE,HL` and `EXX`
works with the index register where it works with `HL`. -/
theorem followsIndex_primary :
    ∀ op, op ∉ prefixBytes → op ≠ 0xEB → op ≠ 0xD9 →
      (primary op).instruction.hasMemoryOperand = false →
      (primary op).instruction.followsIndex = true :=
  forall_byte (by decide)

/-- Behind an index prefix, an opcode without a memory operand is that of the page without prefixes
at the same cost. -/
theorem index_of_direct {op : UInt8} (h : op ∉ prefixBytes)
    (hd : (primary op).instruction.hasMemoryOperand = false) : index op = primary op := by
  have hcb : op ≠ 0xCB := fun hop => h (hop ▸ List.mem_cons_self)
  simp only [index, indexCost_of_direct hd, Nat.add_zero]

end Decode

/-! ### Instructions behind a prefix -/

namespace Board

variable {β : Type} [Bus β]

theorem aim_of_direct (s : Board β) {x : Reg8} (h : x.isIndirect = false) : s.aim x = s := by
  rw [aim, h]
  rfl

variable {t : Board β} (ht : t.cpu.mode = .hl) (m : IndexMode) (bytes : InstructionBytes)
  (a : UInt16)

include ht

/-- An operand is replaced behind a prefix as without it, if the result and the flags do not depend
on what the prefix exchanges. -/
theorem update_behind {x : Reg8} (hx : x.isIndirect = false) {f : Registers → UInt8 → UInt8}
    {g : Registers → UInt8 → Registers} (hf : ∀ r v, f (r.behind m) v = f r v)
    (hg : ∀ r v, g (r.behind m) v = (g r v).behind m) :
    (t.behind m m bytes a).update x f g = (t.update x f g).behind m m bytes a := by
  rw [update, update, aim_of_direct _ hx, aim_of_direct _ hx, operand_behind m bytes a ht hx,
    t.mapRegs_behind m m bytes a (g := (g · (t.operand x))) (hg _ _), regs_behind, hf]
  exact setOperand_behind (t := t.mapRegs _) m bytes a ht hx _

theorem storeWord_behind (p : Pair) :
    (t.behind m m bytes a).storeWord p =
      (t.storeWord p).behind m m ((bytes.push t.nextByte).push t.skip.nextByte) a := by
  rw [storeWord, nextWord_behind, pairValue_behind m bytes a ht, skipWord_behind]
  rfl

theorem loadWord_behind (p : Pair) :
    (t.behind m m bytes a).loadWord p =
      (t.loadWord p).behind m m ((bytes.push t.nextByte).push t.skip.nextByte) a := by
  rw [loadWord, nextWord_behind, skipWord_behind, setPairValue_behind (t := t.skipWord) m _ a ht]
  rfl

theorem exchangeStackTop_behind :
    (t.behind m m bytes a).exchangeStackTop = t.exchangeStackTop.behind m m bytes a := by
  rw [exchangeStackTop, exchangeStackTop, indexValue_behind m bytes a ht, stackTop_behind,
    regs_behind, Registers.behind_sp, ht]
  exact mapRegs_behind m m bytes a { t with bus := writeWord t.bus t.cpu.regs.sp t.indexValue }
    (t.cpu.regs.setIndex_behind m t.stackTop)

/-- An instruction that follows the prefix. Only the bytes fetched for it are not those of the
instruction without the prefix, since the prefix is the first of them. -/
theorem execute_behind {i : Instruction} (hi : i.followsIndex = true) :
    ∃ bytes', (t.behind m m bytes a).execute i = (t.execute i).behind m m bytes' a := by
  rw [execute.eq_def, execute.eq_def]
  cases i with
  | nop | halt | di | ei => exact ⟨bytes, rfl⟩
  | storeBc | storeDe | loadBc | loadDe => exact ⟨bytes, by cases m <;> rfl⟩
  -- Loads and arithmetic with byte operands
  | load dst src =>
    obtain ⟨hdst, hsrc⟩ : dst.isIndirect = false ∧ src.isIndirect = false :=
      Bool.or_eq_false_iff.1 ((Bool.not_eq_true' _).mp hi)
    refine ⟨bytes, ?_⟩
    simp only [loadMode, aim_of_direct _ hdst, aim_of_direct _ hsrc, hdst, hsrc]
    exact (congrArg _ (operand_behind m bytes a ht hsrc)).trans
      (setOperand_behind m bytes a ht hdst _)
  | loadImm x =>
    have hx : x.isIndirect = false := (Bool.not_eq_true' _).mp hi
    refine ⟨bytes.push t.nextByte, ?_⟩
    simp only [aim_of_direct _ hx, nextByte_behind, skip_behind]
    exact setOperand_behind (t := t.skip) m _ a ht hx _
  | inc8 x =>
    have hx : x.isIndirect = false := (Bool.not_eq_true' _).mp hi
    exact ⟨bytes, update_behind ht m bytes a hx (fun _ _ => rfl) fun r v => r.incFlags_behind m v⟩
  | dec8 x =>
    have hx : x.isIndirect = false := (Bool.not_eq_true' _).mp hi
    exact ⟨bytes, update_behind ht m bytes a hx (fun _ _ => rfl) fun r v => r.decFlags_behind m v⟩
  | alu op x =>
    have hx : x.isIndirect = false := (Bool.not_eq_true' _).mp hi
    refine ⟨bytes, ?_⟩
    simp only [aim_of_direct _ hx, operand_behind m bytes a ht hx]
    exact t.mapRegs_behind m m bytes a (t.cpu.regs.alu_behind m op _)
  | aluImm op =>
    refine ⟨bytes.push t.nextByte, ?_⟩
    simp only [nextByte_behind, skip_behind]
    exact t.skip.mapRegs_behind m m _ a (t.skip.cpu.regs.alu_behind m op _)
  -- The accumulator and the flags
  | exAf => exact ⟨bytes, t.mapRegs_behind m m bytes a (t.cpu.regs.exchangeAf_behind m)⟩
  | rlca => exact ⟨bytes, t.mapRegs_behind m m bytes a (t.cpu.regs.rotateA_behind m .rlc)⟩
  | rrca => exact ⟨bytes, t.mapRegs_behind m m bytes a (t.cpu.regs.rotateA_behind m .rrc)⟩
  | rla => exact ⟨bytes, t.mapRegs_behind m m bytes a (t.cpu.regs.rotateA_behind m .rl)⟩
  | rra => exact ⟨bytes, t.mapRegs_behind m m bytes a (t.cpu.regs.rotateA_behind m .rr)⟩
  | daa => exact ⟨bytes, t.mapRegs_behind m m bytes a (t.cpu.regs.decimalAdjust_behind m)⟩
  | cpl => exact ⟨bytes, t.mapRegs_behind m m bytes a (t.cpu.regs.complement_behind m)⟩
  | scf => exact ⟨bytes, t.mapRegs_behind m m bytes a (t.cpu.regs.setCarry_behind m)⟩
  | ccf => exact ⟨bytes, t.mapRegs_behind m m bytes a (t.cpu.regs.flipCarry_behind m)⟩
  -- Words
  | loadPairImm p =>
    refine ⟨(bytes.push t.nextByte).push t.skip.nextByte, ?_⟩
    simp only [nextWord_behind, skipWord_behind]
    exact setPairValue_behind (t := t.skipWord) m _ a ht p _
  | storeAbs =>
    refine ⟨(bytes.push t.nextByte).push t.skip.nextByte, ?_⟩
    simp only [nextWord_behind, skipWord_behind]
    rw [regs_behind, Registers.behind_a]
    exact t.skipWord.store_behind m m _ a _ _
  | loadAbs =>
    refine ⟨(bytes.push t.nextByte).push t.skip.nextByte, ?_⟩
    simp only [nextWord_behind, skipWord_behind]
    exact t.skipWord.mapRegs_behind m m _ a (by cases m <;> rfl)
  | storeHlAbs => exact ⟨_, storeWord_behind ht m bytes a .hl⟩
  | loadHlAbs => exact ⟨_, loadWord_behind ht m bytes a .hl⟩
  | exSpHl => exact ⟨bytes, exchangeStackTop_behind ht m bytes a⟩
  | loadSpHl =>
    refine ⟨bytes, ?_⟩
    simp only [indexValue_behind m bytes a ht]
    exact t.mapRegs_behind m m bytes a (by cases m <;> rfl)
  | jpHl =>
    refine ⟨bytes, ?_⟩
    simp only [indexValue_behind m bytes a ht]
    exact t.jumpTo_behind m m bytes a _
  | inc16 p | dec16 p =>
    refine ⟨bytes, ?_⟩
    simp only [pairValue_behind m bytes a ht]
    exact setPairValue_behind m bytes a ht p _
  | addHl p =>
    refine ⟨bytes, ?_⟩
    simp only [pairValue_behind m bytes a ht, mode_behind, ht]
    exact t.mapRegs_behind m m bytes a (t.cpu.regs.addIndex_behind m _)
  | push p =>
    refine ⟨bytes, ?_⟩
    simp only [pairValue_behind m bytes a ht]
    exact t.push_behind m m bytes a _
  | pop p =>
    refine ⟨bytes, ?_⟩
    simp only [stackTop_behind, drop_behind]
    exact setPairValue_behind (t := t.drop) m bytes a ht p _
  -- Branches
  | djnz =>
    have hb : (t.behind m m bytes a).mapRegs (fun r => { r with b := r.b - 1 }) =
        (t.mapRegs fun r => { r with b := r.b - 1 }).behind m m bytes a :=
      t.mapRegs_behind m m bytes a (by cases m <;> rfl)
    refine ⟨bytes.push t.nextByte, ?_⟩
    simp only [hb, regs_behind, Registers.behind_b, jumpRelative_behind, chargeIf_behind]
    rfl
  | jr => exact ⟨_, t.jumpRelative_behind m m bytes a true⟩
  | jp => exact ⟨_, t.jumpAbsolute_behind m m bytes a true⟩
  | call => exact ⟨_, t.callIf_behind m m bytes a true⟩
  | ret => exact ⟨_, t.returnIf_behind m m bytes a true⟩
  | jrIf cc =>
    refine ⟨bytes.push t.nextByte, ?_⟩
    simp only [regs_behind, Registers.holds_behind, jumpRelative_behind, chargeIf_behind]
  | jpIf cc =>
    refine ⟨(bytes.push t.nextByte).push t.skip.nextByte, ?_⟩
    simp only [regs_behind, Registers.holds_behind, jumpAbsolute_behind, chargeIf_behind]
  | callIf cc =>
    refine ⟨(bytes.push t.nextByte).push t.skip.nextByte, ?_⟩
    simp only [regs_behind, Registers.holds_behind, callIf_behind, chargeIf_behind]
  | retIf cc =>
    refine ⟨bytes, ?_⟩
    simp only [regs_behind, Registers.holds_behind, returnIf_behind, chargeIf_behind]
  | rst vector =>
    refine ⟨bytes, ?_⟩
    simp only [regs_behind, Registers.behind_pc, push_behind]
    exact (t.push t.cpu.regs.pc).jumpTo_behind m m bytes a _
  -- Devices
  | outImm => exact ⟨_, t.outputA_behind m m bytes a⟩
  | inImm => exact ⟨_, t.inputA_behind m m bytes a⟩
  | _ => exact absurd hi nofun

omit ht in
/-- `EX DE,HL` and `EXX` work with `HL` whatever the prefix. -/
theorem execute_behind_exchange {i : Instruction} (hi : i = .exDeHl ∨ i = .exx) :
    (t.behind .hl m bytes a).execute i = (t.execute i).behind .hl m bytes a := by
  obtain rfl | rfl := hi <;> rfl

end Board

/-! ### Decoding behind a prefix -/

namespace Decoding

variable {β : Type} [Bus β]

/-- The search ends with an instruction that is not a prefix. -/
theorem resolve_of_not_prefix {d : Decoding β} (h : d.instruction.isPrefix = false) (n : Nat) :
    d.resolve n = d := by
  have hnext : d.next? = none := by
    rw [next?]
    split <;> simp_all [Instruction.isPrefix]
  cases n with
  | zero => rfl
  | succ n => rw [resolve, hnext]

/-- The decoding of a processor behind a prefix, when `d` is that of the processor without it. -/
def behind (e m : IndexMode) (bytes : InstructionBytes) (a : UInt16) (d : Decoding β) :
    Decoding β :=
  ⟨d.cycles + prefixCycles, d.instruction, d.board.behind e m bytes a⟩

end Decoding

namespace Board

variable {β : Type} [Bus β] (s : Board β) (e m : IndexMode)

/-- The board without the index prefix at its program counter, and with the registers exchanged. -/
def pastPrefix : Board β :=
  s.mapRegs fun r => { r.exchangeIndex e with pc := r.pc + 1 }

/-- The board that has fetched the prefix and the opcode is the board that has fetched the opcode
alone, behind the prefix. -/
theorem skipOpcode_prefixed :
    (s.begin.skipOpcode.setMode m).skipOpcode =
      (s.pastPrefix e).begin.skipOpcode.behind e m
        ((s.cpu.fetched.clear.push s.nextByte).push (s.pastPrefix e).nextByte)
        s.cpu.regs.pc := by
  have hregs : (s.pastPrefix e).begin.skipOpcode.cpu.regs.behind e =
      (s.begin.skipOpcode.setMode m).skipOpcode.cpu.regs := s.cpu.regs.behind_exchangeIndex e
  rw [behind, hregs]
  rfl

/-- Without a prefix, the decoder finds the instruction of the first opcode. -/
theorem decoded_plain (h : s.nextByte ∉ prefixBytes) : s.decoded = s.decodeFirst :=
  Decoding.resolve_of_not_prefix (Decode.isPrefix_primary _ h) _

/-- An index prefix that is not followed by another one leads to the page of its index register. -/
theorem next?_prefixed {m : IndexMode} (hm : m.IsPrefix s.nextByte)
    (h : isIndexPrefix (s.load (s.cpu.regs.pc + 1)) = false) :
    s.begin.decodeFirst.next? =
      some (s.begin.decodeFirst.lookUp Decode.index (s.begin.skipOpcode.setMode m)) := by
  obtain ⟨rfl, hb⟩ | ⟨rfl, hb⟩ := hm
  · have hfirst : s.begin.decodeFirst.instruction = .prefixIx :=
      congrArg (fun b => (Decode.primary b).instruction) hb
    rw [Decoding.next?, hfirst]
    exact if_neg (Bool.eq_false_iff.1 h)
  · have hfirst : s.begin.decodeFirst.instruction = .prefixIy :=
      congrArg (fun b => (Decode.primary b).instruction) hb
    rw [Decoding.next?, hfirst]
    exact if_neg (Bool.eq_false_iff.1 h)

theorem cycles_prefixed {m : IndexMode} (hm : m.IsPrefix s.nextByte) :
    s.begin.decodeFirst.cycles = prefixCycles := by
  obtain ⟨-, hb⟩ | ⟨-, hb⟩ := hm <;> exact congrArg (fun b => (Decode.primary b).cycles) hb

/-- Behind an index prefix, the decoder finds what it finds without the prefix, at the cost of one
more opcode. -/
theorem decoded_prefixed {m : IndexMode} (hm : m.IsPrefix s.nextByte)
    (h : (s.pastPrefix e).nextByte ∉ prefixBytes)
    (hd : (Decode.primary (s.pastPrefix e).nextByte).instruction.hasMemoryOperand = false) :
    ∃ bytes, s.begin.decoded =
      (s.pastPrefix e).begin.decodeFirst.behind e m bytes s.cpu.regs.pc := by
  have hindex : isIndexPrefix (s.load (s.cpu.regs.pc + 1)) = false := by
    have hnot : s.load (s.cpu.regs.pc + 1) ∉ prefixBytes := by cases e <;> exact h
    simp_all [isIndexPrefix, prefixBytes]
  have hnext : (s.begin.skipOpcode.setMode m).nextByte = (s.pastPrefix e).nextByte := by
    cases e <;> rfl
  -- What the second look-up finds is no prefix, so that the search ends there.
  have hend := Decoding.resolve_of_not_prefix (n := 1)
    (d := s.begin.decodeFirst.lookUp Decode.index (s.begin.skipOpcode.setMode m))
    (by rw [Decoding.lookUp, hnext, Decode.index_of_direct h hd]; exact Decode.isPrefix_primary _ h)
  refine ⟨(s.cpu.fetched.clear.push s.nextByte).push (s.pastPrefix e).nextByte, ?_⟩
  rw [decoded, maxLookUps, Decoding.resolve, s.next?_prefixed hm hindex]
  refine hend.trans ?_
  rw [Decoding.lookUp, hnext, Decode.index_of_direct h hd, s.cycles_prefixed hm,
    skipOpcode_prefixed s e m, Nat.add_comm]
  rfl

end Board

/-! ### Stepping behind a prefix -/

/-- The step `r` is the step `p` behind an index prefix, where `e` says which registers the prefix
exchanges: it takes one more opcode, and leaves the same behind with the registers exchanged. Only
what was fetched, and from where, is not compared. -/
structure Stepped.Behind {β : Type} (e : IndexMode) (r p : Stepped β) : Prop where
  cycles : r.cycles = p.cycles + prefixCycles
  instruction : r.executed.map Prod.snd = p.executed.map Prod.snd
  regs : r.board.cpu.regs = (p.board.cpu.regs.exchangeIndex e).refresh
  iff1 : r.board.cpu.iff1 = p.board.cpu.iff1
  iff2 : r.board.cpu.iff2 = p.board.cpu.iff2
  im : r.board.cpu.im = p.board.cpu.im
  halted : r.board.cpu.halted = p.board.cpu.halted
  eiShadow : r.board.cpu.eiShadow = p.board.cpu.eiShadow
  invalidOpcodes : r.board.cpu.invalidOpcodes = p.board.cpu.invalidOpcodes
  bus : r.board.bus = p.board.bus

/-- The step that executes what the decoder has found. -/
def Decoding.execute {β : Type} [Bus β] (d : Decoding β) : Stepped β :=
  let s := d.board.execute d.instruction
  ⟨d.cycles + s.cpu.extraCycles, s.settle, some (d.board.cpu.mode, d.instruction)⟩

theorem Decoding.execute_behind {β : Type} [Bus β] {d : Decoding β} {e m : IndexMode}
    {bytes bytes' : InstructionBytes} {a : UInt16}
    (h : (d.board.behind e m bytes a).execute d.instruction =
      (d.board.execute d.instruction).behind e m bytes' a) :
    Stepped.Behind e (d.behind e m bytes a).execute d.execute := by
  rw [Decoding.execute, Decoding.behind, h]
  exact {
    cycles := Nat.add_right_comm ..
    instruction := rfl
    regs := rfl
    iff1 := rfl
    iff2 := rfl
    im := rfl
    halted := rfl
    eiShadow := rfl
    invalidOpcodes := rfl
    bus := rfl }

namespace Board

variable {β : Type} [Bus β] {s : Board β}

/-- The board on which a step looks for its instruction. -/
def started (s : Board β) : Board β :=
  { s with cpu := { s.cpu with extraCycles := 0, eiShadow := false } }

/-- A board that is not halted executes what the decoder finds. -/
theorem step_eq_execute (h : s.cpu.halted = false) : s.step = s.started.begin.decoded.execute := by
  rw [step]
  exact if_neg (Bool.eq_false_iff.1 h)

/-- A step behind a prefix, if the instruction does behind the prefix what it does without. -/
theorem behind_of_execute {e m : IndexMode} (hrun : s.cpu.halted = false)
    (hm : m.IsPrefix s.nextByte) (h : s.load (s.cpu.regs.pc + 1) ∉ prefixBytes)
    (hd : (Decode.primary (s.load (s.cpu.regs.pc + 1))).instruction.hasMemoryOperand = false)
    (hexecute : ∀ (t : Board β) (bytes : InstructionBytes) (a : UInt16), t.cpu.mode = .hl →
      let i := (Decode.primary (s.load (s.cpu.regs.pc + 1))).instruction
      ∃ bytes', (t.behind e m bytes a).execute i = (t.execute i).behind e m bytes' a) :
    Stepped.Behind e s.step (s.pastPrefix e).step := by
  obtain ⟨bytes, hprefixed⟩ := s.started.decoded_prefixed e hm h hd
  have hplain : (s.pastPrefix e).started.begin.decoded =
      (s.started.pastPrefix e).begin.decodeFirst := decoded_plain _ h
  obtain ⟨bytes', hx⟩ :=
    hexecute (s.started.pastPrefix e).begin.decodeFirst.board bytes s.cpu.regs.pc rfl
  rw [step_eq_execute hrun, step_eq_execute (s := s.pastPrefix e) hrun, hprefixed, hplain]
  exact Decoding.execute_behind hx

/-- A step behind an index prefix, for every opcode without an operand in memory. The step works
with the index register as the step without the prefix works with `HL`, except for `EX DE,HL` and
`EXX`, which work with `HL` still. -/
theorem step_behind {m : IndexMode} {op : UInt8} (hrun : s.cpu.halted = false)
    (hm : m.IsPrefix s.nextByte) (hop : s.load (s.cpu.regs.pc + 1) = op) (h : op ∉ prefixBytes)
    (hd : (Decode.primary op).instruction.hasMemoryOperand = false) :
    (op ≠ 0xEB → op ≠ 0xD9 → Stepped.Behind m s.step (s.pastPrefix m).step) ∧
      (op = 0xEB ∨ op = 0xD9 → Stepped.Behind .hl s.step (s.pastPrefix .hl).step) := by
  subst hop
  constructor
  · intro hde hx
    refine behind_of_execute hrun hm h hd fun t bytes a ht => ?_
    exact execute_behind ht m bytes a (Decode.followsIndex_primary _ h hde hx hd)
  · intro hop
    refine behind_of_execute hrun hm h hd fun t bytes a _ => ⟨bytes, ?_⟩
    apply execute_behind_exchange
    obtain hop | hop := hop <;> rw [hop]
    · exact .inl rfl
    · exact .inr rfl

/-- `INC IX` in front of the program counter. -/
def incIx : Board PortBus where
  cpu := .create
  bus := .ofFlat (.ofMemory ((Memory.blank.write 0 0xDD).write 1 0x23) .silent)

theorem load_incIx : incIx.load 0 = 0xDD ∧ incIx.load 1 = 0x23 := by
  constructor
  · exact (Memory.read_write_of_ne _ _ (by decide)).trans (Memory.read_write_self ..)
  · exact Memory.read_write_self ..

/-- `INC IX` is `INC HL` behind a prefix. -/
theorem step_behind_incIx :
    incIx.cpu.halted = false ∧ incIx.nextByte = 0xDD ∧ incIx.load 1 = 0x23 ∧
      Stepped.Behind .ix incIx.step (incIx.pastPrefix .ix).step := by
  obtain ⟨hdd, hop⟩ := load_incIx
  refine ⟨rfl, hdd, hop, ?_⟩
  exact (step_behind (m := .ix) rfl (.inl ⟨rfl, hdd⟩) hop (by decide) rfl).1
    (by decide) (by decide)

end Board

end EightBit.Z80
