import EightBit.Proofs.Memory
import EightBit.Proofs.Z80.IndexPrefix

/-!
# What the decoder hands over

The search for an instruction fetches its opcode bytes and touches nothing else: the program counter
moves on by the bytes fetched, the refresh counter counts them, and the processor notes what it has
found. It ends with an instruction that is not a prefix, with one exception. An index prefix in
front of another one is a step of its own, which has no effect; the complete instruction then goes
on in the next step.

## Main definitions

* `Board.FetchedFrom`: one board is another one after bytes were fetched.
* `Board.StartsPrefixRun`: an index prefix is followed by another one.
* `Board.HasCode`: the bytes that the program counter points to.
* `Instruction.isIndexPrefix`, `Instruction.isIndexed`: the instructions that end such a step, and
  those of the page behind an index prefix and `CB`.

## Main results

* `Decoding.next?_cases`: one look-up.
* `Board.fetchedFrom_decoded`: what the search does to the board.
* `Board.isIndexPrefix_decoded_iff`: when it ends with a prefix.
-/

namespace EightBit.Z80

namespace Instruction

/-- Whether the instruction is an index prefix. -/
def isIndexPrefix : Instruction → Bool
  | prefixIx | prefixIy => true
  | _ => false

/-- Whether the instruction belongs to the page behind an index prefix and `CB`, whose operands have
been aimed at by the decoder. -/
def isIndexed : Instruction → Bool
  | indexShift .. | indexBit .. | indexRes .. | indexSet .. => true
  | _ => false

theorem isPrefix_of_isIndexPrefix {i : Instruction} (h : i.isIndexPrefix = true) :
    i.isPrefix = true := by
  cases i <;> first | rfl | exact absurd h nofun

theorem isPrefix_of_isIndexed {i : Instruction} (h : i.isIndexed = true) : i.isPrefix = false := by
  cases i <;> first | rfl | exact absurd h nofun

end Instruction

/-! ### The pages -/

namespace Decode

/-- Behind `ED` there is no further prefix. -/
theorem isPrefix_ed : ∀ op, (ed op).instruction.isPrefix = false :=
  forall_byte (by decide)

/-- Nor is there one behind `CB`. -/
theorem isPrefix_cb : ∀ op, (cb op).instruction.isPrefix = false :=
  forall_byte (by decide)

/-- Behind an index prefix and `CB` the operand is indexed. -/
theorem isIndexed_indexCb : ∀ op, (indexCb op).instruction.isIndexed = true :=
  forall_byte (by decide)

/-- The opcodes of the index prefixes. -/
theorem isIndexPrefix_primary :
    ∀ op, (primary op).instruction.isIndexPrefix = isIndexPrefix op :=
  forall_byte (by decide)

/-- An index prefix leads to the same opcodes. -/
theorem isIndexPrefix_index :
    ∀ op, (index op).instruction.isIndexPrefix = isIndexPrefix op :=
  forall_byte (by decide)

end Decode

namespace Board

variable {β : Type} [Bus β] (s : Board β)

/-! ### Fetching -/

@[simp] theorem pc_skip : s.skip.cpu.regs.pc = s.cpu.regs.pc + 1 := rfl

/-- The board `t` is `s` after bytes were fetched: only the program counter, the refresh counter and
what is known about the instruction have changed. -/
def FetchedFrom (t s : Board β) : Prop :=
  ∃ pc r bytes m a,
    t = { s with
      cpu := { s.cpu with
        regs := { s.cpu.regs with pc := pc, r := r }
        fetched := bytes
        mode := m
        indexAddress := a } }

namespace FetchedFrom

variable {s t u : Board β}

omit [Bus β] in
theorem trans (ht : t.FetchedFrom s) (hu : u.FetchedFrom t) : u.FetchedFrom s := by
  obtain ⟨_, _, _, _, _, rfl⟩ := ht
  obtain ⟨pc, r, bytes, m, a, rfl⟩ := hu
  exact ⟨pc, r, bytes, m, a, rfl⟩

theorem skipOpcode (s : Board β) : s.skipOpcode.FetchedFrom s :=
  ⟨_, _, _, _, _, rfl⟩

theorem skipIndexCb (s : Board β) : s.skipIndexCb.FetchedFrom s :=
  ⟨_, _, _, _, _, rfl⟩

omit [Bus β] in
theorem setMode (s : Board β) (m : IndexMode) : (s.setMode m).FetchedFrom s :=
  ⟨_, _, _, _, _, rfl⟩

end FetchedFrom

theorem skipOpcode_eq (s : Board β) :
    s.skipOpcode = { s with
      cpu := { s.cpu with
        fetched := s.cpu.fetched.push s.nextByte
        regs := { s.cpu.regs with pc := s.cpu.regs.pc + 1, r := s.cpu.regs.refresh.r } } } := rfl

/-- The board after a prefix, which says which register stands for `HL`, and the opcode
behind it. -/
def pastOpcodes (s : Board β) (m : IndexMode) : Board β :=
  (s.started.begin.skipOpcode.setMode m).skipOpcode

theorem pastOpcodes_eq (s : Board β) (m : IndexMode) :
    s.pastOpcodes m = { s with
      cpu := { s.cpu with
        regs := { s.cpu.regs with
          pc := s.cpu.regs.pc + 2
          r := s.cpu.regs.refresh.refresh.r }
        eiShadow := false
        mode := m
        indexAddress := none
        extraCycles := 0
        instructionAddress := s.cpu.regs.pc
        fetched := (s.cpu.fetched.clear.push s.nextByte).push (s.load (s.cpu.regs.pc + 1)) } } := by
  have hpc : s.cpu.regs.pc + 1 + 1 = s.cpu.regs.pc + 2 := UInt16.add_assoc _ 1 1
  simp only [pastOpcodes, started, begin, skipOpcode_eq, setMode, nextByte, load,
    Registers.refresh, hpc]

/-- An index prefix at the program counter is followed by another one. -/
def StartsPrefixRun (s : Board β) : Prop :=
  isIndexPrefix s.nextByte = true ∧ isIndexPrefix (s.load (s.cpu.regs.pc + 1)) = true

end Board

/-! ### One look-up -/

namespace Decoding

variable {β : Type} [Bus β] {d e : Decoding β}

/-- One look-up: an opcode is fetched and looked up in the page of the prefix, or a displacement and
an opcode are. -/
theorem next?_cases (h : d.next? = some e) :
    d.instruction.isIndexPrefix = true ∧ isIndexPrefix d.board.nextByte = false ∧
        (∃ m, e = d.lookUp Decode.index (d.board.setMode m)) ∨
      d.instruction = .prefixEd ∧ e = d.lookUp Decode.ed (d.board.setMode .hl) ∨
      d.instruction = .prefixCb ∧ e = d.lookUp Decode.cb d.board ∨
      d.instruction = .prefixIndexCb ∧
        e.instruction = (Decode.indexCb d.board.skip.nextByte).instruction ∧
        e.board = d.board.skipIndexCb := by
  have hfollow (m : IndexMode) (hm : d.followIndex m = some e) :
      isIndexPrefix d.board.nextByte = false ∧
        e = d.lookUp Decode.index (d.board.setMode m) := by
    rw [followIndex] at hm
    split at hm
    next => exact absurd hm nofun
    next hnext => exact ⟨Bool.eq_false_iff.2 hnext, (Option.some.inj hm).symm⟩
  rw [next?] at h
  split at h
  next hi =>
    obtain ⟨hnext, he⟩ := hfollow _ h
    exact .inl ⟨congrArg Instruction.isIndexPrefix hi, hnext, _, he⟩
  next hi =>
    obtain ⟨hnext, he⟩ := hfollow _ h
    exact .inl ⟨congrArg Instruction.isIndexPrefix hi, hnext, _, he⟩
  next hi => exact .inr (.inl ⟨hi, (Option.some.inj h).symm⟩)
  next hi => exact .inr (.inr (.inl ⟨hi, (Option.some.inj h).symm⟩))
  next hi =>
    obtain rfl := Option.some.inj h
    exact .inr (.inr (.inr ⟨hi, rfl, rfl⟩))
  next => exact absurd h nofun

/-- What every look-up preserves holds at the end of the search. -/
theorem resolve_induction {P : Decoding β → Prop} (hd : P d)
    (hnext : ∀ d e, d.next? = some e → P d → P e) (n : Nat) : P (d.resolve n) := by
  induction n generalizing d with
  | zero => exact hd
  | succ n ih =>
    rw [resolve]
    split
    next e he => exact ih (hnext d e he hd)
    next => exact hd

theorem fetchedFrom_of_next? (h : d.next? = some e) : e.board.FetchedFrom d.board := by
  obtain ⟨-, -, m, rfl⟩ | ⟨-, rfl⟩ | ⟨-, rfl⟩ | ⟨-, -, hboard⟩ := next?_cases h
  · exact (Board.FetchedFrom.setMode _ m).trans (.skipOpcode _)
  · exact (Board.FetchedFrom.setMode _ .hl).trans (.skipOpcode _)
  · exact .skipOpcode _
  · rw [hboard]
    exact .skipIndexCb _

/-- The address of an indexed operand is known only to the instructions behind an index prefix and
`CB`. -/
def AimsWhenIndexed (d : Decoding β) : Prop :=
  d.instruction.isIndexed = true ∨ d.board.cpu.indexAddress = none

theorem aimsWhenIndexed_of_next? (h : d.next? = some e) (hd : d.AimsWhenIndexed) :
    e.AimsWhenIndexed := by
  -- The instruction looked up so far is a prefix, so that no address is known yet.
  have hnone (hi : d.instruction.isPrefix = true) : d.board.cpu.indexAddress = none :=
    hd.resolve_left fun hindexed =>
      Bool.false_ne_true ((Instruction.isPrefix_of_isIndexed hindexed).symm.trans hi)
  obtain ⟨hi, -, m, rfl⟩ | ⟨hi, rfl⟩ | ⟨hi, rfl⟩ | ⟨-, hi, -⟩ := next?_cases h
  · exact .inr (hnone (Instruction.isPrefix_of_isIndexPrefix hi))
  · exact .inr (hnone (congrArg Instruction.isPrefix hi))
  · exact .inr (hnone (congrArg Instruction.isPrefix hi))
  · rw [AimsWhenIndexed, hi]
    exact .inl (Decode.isIndexed_indexCb _)

/-- A look-up does not end with an index prefix. -/
theorem isIndexPrefix_of_next? (h : d.next? = some e) : e.instruction.isIndexPrefix = false := by
  have hplain {i : Instruction} (hi : i.isPrefix = false) : i.isIndexPrefix = false :=
    Bool.eq_false_iff.2 fun hindex =>
      Bool.false_ne_true (hi.symm.trans (Instruction.isPrefix_of_isIndexPrefix hindex))
  obtain ⟨-, hnext, m, rfl⟩ | ⟨-, rfl⟩ | ⟨-, rfl⟩ | ⟨-, hi, -⟩ := next?_cases h
  · exact (Decode.isIndexPrefix_index _).trans hnext
  · exact hplain (Decode.isPrefix_ed _)
  · exact hplain (Decode.isPrefix_cb _)
  · rw [hi]
    exact hplain (Instruction.isPrefix_of_isIndexed (Decode.isIndexed_indexCb _))

/-- Once an index prefix has been followed, the search does not end with one. -/
theorem isIndexPrefix_resolve (hd : d.instruction.isIndexPrefix = false) (n : Nat) :
    (d.resolve n).instruction.isIndexPrefix = false :=
  resolve_induction (P := fun d => d.instruction.isIndexPrefix = false) hd
    (fun _ _ h _ => isIndexPrefix_of_next? h) n

/-- An index prefix is not followed exactly if another one comes next. -/
theorem next?_eq_none_iff_of_isIndexPrefix (hd : d.instruction.isIndexPrefix = true) :
    d.next? = none ↔ isIndexPrefix d.board.nextByte = true := by
  have hfollow (m : IndexMode) :
      d.followIndex m = none ↔ isIndexPrefix d.board.nextByte = true := by
    rw [followIndex]
    split
    next h => exact iff_of_true rfl h
    next h => exact iff_of_false nofun h
  rw [next?]
  split
  next => exact hfollow .ix
  next => exact hfollow .iy
  all_goals simp_all [Instruction.isIndexPrefix]

end Decoding

/-! ### The search -/

namespace Board

variable {β : Type} [Bus β] (s : Board β)

/-- The search does nothing but fetch. -/
theorem fetchedFrom_decoded : s.decoded.board.FetchedFrom s :=
  Decoding.resolve_induction (P := fun d => d.board.FetchedFrom s) (.skipOpcode s)
    (fun _ _ h hd => hd.trans (Decoding.fetchedFrom_of_next? h)) _

theorem aimsWhenIndexed_decoded (h : s.cpu.indexAddress = none) : s.decoded.AimsWhenIndexed :=
  Decoding.resolve_induction (P := Decoding.AimsWhenIndexed) (.inr h)
    (fun _ _ h hd => Decoding.aimsWhenIndexed_of_next? h hd) _

variable {s}

/-- Behind `CB` the search ends with the second opcode. -/
theorem decoded_of_cb (h : s.nextByte = 0xCB) :
    s.decoded = s.decodeFirst.lookUp Decode.cb s.skipOpcode := by
  have hfirst : s.decodeFirst.instruction = .prefixCb :=
    congrArg (fun b => (Decode.primary b).instruction) h
  have hend := Decoding.resolve_of_not_prefix (n := 1)
    (d := s.decodeFirst.lookUp Decode.cb s.skipOpcode) (Decode.isPrefix_cb _)
  rw [decoded, maxLookUps, Decoding.resolve, Decoding.next?, hfirst]
  exact hend

/-- Behind `ED` too. -/
theorem decoded_of_ed (h : s.nextByte = 0xED) :
    s.decoded = s.decodeFirst.lookUp Decode.ed (s.skipOpcode.setMode .hl) := by
  have hfirst : s.decodeFirst.instruction = .prefixEd :=
    congrArg (fun b => (Decode.primary b).instruction) h
  have hend := Decoding.resolve_of_not_prefix (n := 1)
    (d := s.decodeFirst.lookUp Decode.ed (s.skipOpcode.setMode .hl)) (Decode.isPrefix_ed _)
  rw [decoded, maxLookUps, Decoding.resolve, Decoding.next?, hfirst]
  exact hend

/-- An index prefix in front of another one is all that is found. -/
theorem decoded_of_startsPrefixRun (h : s.StartsPrefixRun) : s.decoded = s.decodeFirst := by
  have hfirst : s.decodeFirst.instruction.isIndexPrefix = true :=
    (Decode.isIndexPrefix_primary _).trans h.1
  rw [decoded, maxLookUps, Decoding.resolve,
    (Decoding.next?_eq_none_iff_of_isIndexPrefix hfirst).2 h.2]

/-- The search ends with an index prefix exactly if another one comes next. -/
theorem isIndexPrefix_decoded_iff :
    s.decoded.instruction.isIndexPrefix = true ↔ s.StartsPrefixRun := by
  constructor
  · intro h
    by_cases hfirst : s.decodeFirst.instruction.isIndexPrefix = true
    · refine ⟨(Decode.isIndexPrefix_primary _).symm.trans hfirst, ?_⟩
      refine (Decoding.next?_eq_none_iff_of_isIndexPrefix hfirst).1 ?_
      -- Had the prefix been followed, the search would not have ended with one.
      refine Option.eq_none_iff_forall_ne_some.2 fun e he => ?_
      rw [decoded, maxLookUps, Decoding.resolve, he] at h
      exact Bool.false_ne_true
        ((Decoding.isIndexPrefix_resolve (Decoding.isIndexPrefix_of_next? he) 1).symm.trans h)
    · rw [decoded, Decoding.isIndexPrefix_resolve (Bool.eq_false_iff.2 hfirst)] at h
      exact absurd h Bool.false_ne_true
  · intro h
    rw [decoded_of_startsPrefixRun h]
    exact (Decode.isIndexPrefix_primary _).trans h.1

/-! ### Code -/

/-- The program counter points to these bytes. -/
def HasCode (s : Board β) (code : List UInt8) : Prop :=
  ∀ i b, code[i]? = some b → s.load (s.cpu.regs.pc + UInt16.ofNat i) = b

namespace HasCode

variable {b : UInt8} {bs bs' : List UInt8}

theorem nextByte (h : s.HasCode (b :: bs)) : s.nextByte = b := by
  have hfirst := h 0 b rfl
  rwa [show s.cpu.regs.pc + UInt16.ofNat 0 = s.cpu.regs.pc from UInt16.add_zero _] at hfirst

theorem of_append (h : s.HasCode (bs ++ bs')) : s.HasCode bs :=
  fun i b hb => h i b (List.getElem?_append_left (List.getElem?_eq_some_iff.1 hb).1 ▸ hb)

end HasCode

/-- A processor after power-on, in front of code at address zero. -/
def codeBoard (code : List UInt8) : Board PortBus where
  cpu := .create
  bus := .ofFlat (.ofMemory (Memory.blank.store 0 code) .silent)

theorem load_codeBoard {code : List UInt8} (hcode : code.length ≤ addressCount) (a : UInt16) :
    (codeBoard code).load a = code.getD a.toNat 0 :=
  Memory.read_store_zero_blank a hcode

theorem hasCode_codeBoard {code : List UInt8} (hcode : code.length ≤ addressCount) :
    (codeBoard code).HasCode code := by
  intro i b hb
  have hi : i < addressCount := Nat.lt_of_lt_of_le (List.getElem?_eq_some_iff.1 hb).1 hcode
  have haddress : ((codeBoard code).cpu.regs.pc + UInt16.ofNat i).toNat = i := by
    have hpc : (codeBoard code).cpu.regs.pc = 0 := rfl
    rw [hpc, UInt16.zero_add, UInt16.toNat_ofNat']
    exact Nat.mod_eq_of_lt hi
  rw [load_codeBoard hcode, haddress, List.getD_eq_getElem?_getD, hb, Option.getD_some]

end Board

end EightBit.Z80
