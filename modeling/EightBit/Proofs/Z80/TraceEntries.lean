import EightBit.Proofs.Z80.Blocks
import EightBit.Proofs.Z80.Fetched
import EightBit.Proofs.Z80.Kept

/-!
# Trace entries of the Z80

The trace entry of a step has the address of its instruction and the bytes fetched for it, as far
as its record goes. That is far enough but for one kind of instructions: an index prefix has no
effect in front of `ED`, but it is fetched, and a load or a store of a pair at an immediate address
behind both has five bytes.

## Main definitions

* `Board.jumps`: an instruction that sends the program counter elsewhere.
* `Board.fetchedBytes`: the bytes that a step fetches.
* `Board.IsLongest`: the instructions of five bytes.
* `Board.TracesFully`, `Board.TracesStep`: what a trace entry should have, and what it has.

## Main results

* `Board.pc_execute_of_not_jumps`: where the program counter is after an instruction that does not
  jump.
* `Board.exists_fetches_found`: how many bytes are fetched.
* `Board.tracesStep`: the trace entry of a step.
* `Board.not_forall_tracesFully`: a byte that is missing.
-/

namespace EightBit.Z80

namespace Board

variable {β : Type} [Bus β] {s : Board β}

/-! ### Jumps -/

/-- Whether an instruction, executed now, sends the program counter elsewhere. -/
def jumps (s : Board β) : Instruction → Bool
  | .jr | .jp | .jpHl | .call | .ret | .rst _ | .retn | .reti => true
  | .jrIf cc | .jpIf cc | .callIf cc | .retIf cc => s.cpu.regs.holds cc
  | .djnz => s.cpu.regs.b - 1 != 0
  | .block op increment repeats => repeats && (s.blockByte op increment).1
  | _ => false

/-- An instruction that does not jump moves the program counter past its operands. -/
theorem pc_execute_of_not_jumps {i : Instruction} (hi : s.jumps i = false)
    (h : i.isIndexed = true ∨ s.cpu.indexAddress = none) :
    (s.execute i).cpu.regs.pc =
      s.cpu.regs.pc + UInt16.ofNat (i.operandBytes s.cpu.mode) := by
  cases htransfers : i.transfers with
  | false => exact pc_execute htransfers h
  | true =>
    cases i with
    | djnz =>
      have htaken : ((s.mapRegs fun r => { r with b := r.b - 1 }).cpu.regs.b != 0) = false := hi
      rw [execute, htaken]
      rfl
    | jrIf cc =>
      have htaken : s.cpu.regs.holds cc = false := hi
      rw [execute, htaken]
      rfl
    | jpIf cc | callIf cc =>
      have htaken : s.cpu.regs.holds cc = false := hi
      rw [execute, htaken]
      exact (Fetches.skipWord s).pc
    | retIf cc =>
      have htaken : s.cpu.regs.holds cc = false := hi
      rw [execute, htaken]
      exact (Fetches.refl s).pc
    | block op increment repeats =>
      have hagain : (repeats && (s.blockByte op increment).1) = false := hi
      rw [execute, block_eq]
      dsimp only
      rw [hagain]
      exact (s.pc_blockByte op increment).trans (Fetches.refl s).pc
    | jr | jp | jpHl | call | ret | rst _ | retn | reti => exact absurd hi.symm Bool.false_ne_true
    | _ => exact absurd htransfers Bool.false_ne_true

/-! ### The step -/

/-- The board with nothing recorded. -/
def clearRecord (s : Board β) : Board β :=
  { s with cpu := { s.cpu with fetched := .empty } }

/-- The bytes that a step fetches: those of the decoder, and then those of the instruction, which
begins a record of its own here. Neither part is too long for its record: the decoder fetches four
at most (`pc_found`), the instruction two (`length_fetched_operands_lt`). -/
def fetchedBytes (s : Board β) : List UInt8 :=
  s.found.board.cpu.fetched.toList ++
    (s.found.board.clearRecord.execute s.found.instruction).cpu.fetched.toList

/-- The opcodes behind `ED` that load or store a pair at an immediate address. -/
def pairOpcodes : List UInt8 :=
  [0x43, 0x4B, 0x53, 0x5B, 0x63, 0x6B, 0x73, 0x7B]

/-- An index prefix in front of the longest instructions, which it has no effect on. -/
def IsLongest (s : Board β) : Prop :=
  s.StartsIndexEd ∧ s.load (s.cpu.regs.pc + 2) ∈ pairOpcodes

end Board

theorem Decode.operandBytes_ed (m : IndexMode) :
    ∀ op, (ed op).instruction.operandBytes m = if op ∈ Board.pairOpcodes then 2 else 0 := by
  cases m <;> exact forall_byte (by decide)

/-- What stands behind an index prefix and `CB` has no operands left to fetch. -/
theorem Instruction.operandBytes_of_isIndexed {i : Instruction} (h : i.isIndexed = true)
    (m : IndexMode) : i.operandBytes m = 0 := by
  cases i with
  | indexShift | indexRes | indexSet | indexBit => rfl
  | _ => exact absurd h Bool.false_ne_true

namespace Board

variable {β : Type} [Bus β] {s : Board β}

/-- The decoder and the instruction together fetch no more than five bytes. -/
theorem exists_fetches_found (s : Board β) :
    ∃ n, s.started.begin.Fetches s.found.board n ∧ 0 < n ∧ n ≤ 4 ∧
      (n + s.found.instruction.operandBytes s.found.board.cpu.mode = 5 ∧ s.IsLongest ∨
        n + s.found.instruction.operandBytes s.found.board.cpu.mode ≤ 4 ∧ ¬s.IsLongest) := by
  by_cases hed : s.StartsIndexEd
  · obtain ⟨hinstruction, hfetches⟩ := decoded_of_startsIndexEd (s := s.started.begin) hed
    refine ⟨3, hfetches, by decide, by decide, ?_⟩
    have hoperands := Decode.operandBytes_ed s.found.board.cpu.mode (s.load (s.cpu.regs.pc + 2))
    have hfound : s.found.instruction = (Decode.ed (s.load (s.cpu.regs.pc + 2))).instruction :=
      hinstruction
    rw [hfound, hoperands]
    by_cases hpair : s.load (s.cpu.regs.pc + 2) ∈ pairOpcodes
    · rw [if_pos hpair]
      exact .inl ⟨rfl, hed, hpair⟩
    · rw [if_neg hpair]
      exact .inr ⟨by decide, fun h => hpair h.2⟩
  · obtain ⟨n, hfetches, hn⟩ := fetches_decoded_of_not_startsIndexEd (s := s.started.begin) hed
    have hoperands := s.found.instruction.operandBytes_le s.found.board.cpu.mode
    refine ⟨n, hfetches, by omega, by omega, .inr ⟨?_, fun h => hed h.1⟩⟩
    obtain ⟨-, hle⟩ | ⟨rfl, hindexed⟩ := hn
    · omega
    · exact Nat.le_of_eq (congrArg (4 + ·) (Instruction.operandBytes_of_isIndexed hindexed _))

/-- A record that keeps no byte has room for four. -/
theorem toList_record_ahead (s : Board β) {n : Nat} (hn : n ≤ maxInstructionBytes)
    {bs : InstructionBytes} (hbs : bs.toList = []) :
    ((s.ahead n).foldl InstructionBytes.push bs).toList = s.ahead n := by
  rw [InstructionBytes.toList_foldl_push, hbs, List.nil_append]
  exact List.take_of_length_le (Nat.le_trans (Nat.le_of_eq (s.length_ahead n)) hn)

theorem toList_fetched_found {n : Nat} (h : s.started.begin.Fetches s.found.board n)
    (hn : n ≤ maxInstructionBytes) : s.found.board.cpu.fetched.toList = s.ahead n :=
  (congrArg InstructionBytes.toList h.recorded).trans (s.started.begin.toList_record_ahead hn rfl)

variable (s) in
theorem toList_fetched_operands :
    (s.found.board.clearRecord.execute s.found.instruction).cpu.fetched.toList =
      s.found.board.ahead (s.found.instruction.operandBytes s.found.board.cpu.mode) := by
  have haims : s.found.AimsWhenIndexed := s.started.begin.aimsWhenIndexed_decoded rfl
  have hle := s.found.instruction.operandBytes_le s.found.board.cpu.mode
  rw [fetched_execute (s := s.found.board.clearRecord) haims]
  exact toList_record_ahead _ (Nat.le_trans hle (by decide)) rfl

/-- The bytes that a step fetches are those from the program counter on. -/
theorem fetchedBytes_eq {n : Nat} (h : s.started.begin.Fetches s.found.board n)
    (hn : n ≤ maxInstructionBytes) :
    s.fetchedBytes =
      s.ahead (n + s.found.instruction.operandBytes s.found.board.cpu.mode) := by
  rw [fetchedBytes, toList_fetched_found h hn, toList_fetched_operands]
  exact (h.ahead_add _).symm

variable (s) in
/-- The decoder has recorded all that it moved the program counter past. -/
theorem pc_found : s.found.board.cpu.regs.pc =
    s.cpu.regs.pc + UInt16.ofNat s.found.board.cpu.fetched.length := by
  obtain ⟨n, hfetches, -, hn, -⟩ := s.exists_fetches_found
  rw [← InstructionBytes.length_toList, toList_fetched_found hfetches hn, length_ahead]
  exact hfetches.pc

variable (s) in
/-- The record of the instruction's own bytes has room left. -/
theorem length_fetched_operands_lt :
    (s.found.board.clearRecord.execute s.found.instruction).cpu.fetched.length <
      maxInstructionBytes := by
  rw [← InstructionBytes.length_toList, toList_fetched_operands, length_ahead]
  exact Nat.lt_of_le_of_lt (Instruction.operandBytes_le _ _) (by decide)

variable (s) in
/-- A step fetches at least one byte, and a fifth in the longest instructions only. -/
theorem length_fetchedBytes :
    0 < s.fetchedBytes.length ∧ s.fetchedBytes.length ≤ 5 ∧
      (s.fetchedBytes.length = 5 ↔ s.IsLongest) := by
  obtain ⟨n, hfetches, hpos, hn, hlength⟩ := s.exists_fetches_found
  rw [fetchedBytes_eq hfetches hn, length_ahead]
  obtain ⟨hfive, hlongest⟩ | ⟨hle, hnot⟩ := hlength
  · exact ⟨by omega, by omega, iff_of_true hfive hlongest⟩
  · exact ⟨by omega, by omega, iff_of_false (by omega) hnot⟩

variable (s) in
theorem fetchedBytes_eq_ahead : s.fetchedBytes = s.ahead s.fetchedBytes.length := by
  obtain ⟨n, hfetches, -, hn, -⟩ := s.exists_fetches_found
  rw [fetchedBytes_eq hfetches hn, length_ahead]

/-- A step that does not jump moves the program counter past the bytes fetched. -/
theorem pc_step_of_not_jumps (hrun : s.cpu.halted = false)
    (h : s.found.board.jumps s.found.instruction = false) :
    s.step.board.cpu.regs.pc = s.cpu.regs.pc + UInt16.ofNat s.fetchedBytes.length := by
  obtain ⟨n, hfetches, -, hn, -⟩ := s.exists_fetches_found
  have haims : s.found.AimsWhenIndexed := s.started.begin.aimsWhenIndexed_decoded rfl
  rw [step_eq_execute hrun, fetchedBytes_eq hfetches hn, length_ahead, UInt16.ofNat_add,
    ← UInt16.add_assoc]
  exact (pc_execute_of_not_jumps h haims).trans (congrArg (· + _) hfetches.pc)

/-! ### Trace entries -/

/-- The trace entry of a step has what its record has room for. -/
theorem entry?_step (hrun : s.cpu.halted = false) :
    ∃ e, s.step.entry? = some e ∧ e.address = s.cpu.regs.pc ∧
      e.bytes.toList = s.fetchedBytes.take maxInstructionBytes := by
  obtain ⟨n, hfetches, -, hn, -⟩ := s.exists_fetches_found
  have haims : s.found.AimsWhenIndexed := s.started.begin.aimsWhenIndexed_decoded rfl
  have hrecord : s.step.board.cpu.fetched =
      s.fetchedBytes.foldl InstructionBytes.push s.cpu.fetched.clear := by
    rw [step_eq_execute hrun, fetchedBytes_eq hfetches hn]
    refine (fetched_execute haims).trans ?_
    rw [hfetches.recorded, ← List.foldl_append, ← hfetches.ahead_add]
    rfl
  refine ⟨s.step.board.cpu.traceEntry s.found.board.cpu.mode s.found.instruction, ?_, ?_, ?_⟩
  · rw [Stepped.entry?, executed_of_running hrun]
    rfl
  · exact instructionAddress_step hrun
  · exact (congrArg InstructionBytes.toList hrecord).trans (InstructionBytes.toList_foldl_push _ _)

/-- The trace entry of a step has, in order, every byte fetched, and the program counter has moved
by as many, unless the instruction jumps. -/
def TracesFully (s : Board β) : Prop :=
  ∃ e, s.step.entry? = some e ∧ e.address = s.cpu.regs.pc ∧ e.bytes.toList = s.fetchedBytes ∧
    s.fetchedBytes = s.ahead s.fetchedBytes.length ∧
    (s.found.board.jumps s.found.instruction = false →
      s.step.board.cpu.regs.pc = s.cpu.regs.pc + UInt16.ofNat e.bytes.length)

/-- Of the longest instructions a byte is missing. -/
theorem tracesFully_iff (hrun : s.cpu.halted = false) : s.TracesFully ↔ ¬s.IsLongest := by
  obtain ⟨-, hle, hlongest⟩ := s.length_fetchedBytes
  rw [← hlongest]
  constructor
  · rintro ⟨e, -, -, hall, -⟩ hfive
    have hkept := e.bytes.length_le
    rw [← InstructionBytes.length_toList, hall, hfive] at hkept
    exact absurd hkept (by decide)
  · intro hnot
    obtain ⟨e, hentry, haddress, hkept⟩ := entry?_step hrun
    have hall : e.bytes.toList = s.fetchedBytes := by
      rw [hkept]
      refine List.take_of_length_le ?_
      rw [maxInstructionBytes]
      omega
    refine ⟨e, hentry, haddress, hall, s.fetchedBytes_eq_ahead, fun h => ?_⟩
    rw [← InstructionBytes.length_toList, hall]
    exact pc_step_of_not_jumps hrun h

/-- The trace entry of a step has the first four bytes fetched, and these are all but for the
longest instructions, which have five. The program counter has moved by the bytes fetched, unless
the instruction jumps. -/
structure TracesStep (s : Board β) : Prop where
  opcodes : s.found.board.cpu.regs.pc =
    s.cpu.regs.pc + UInt16.ofNat s.found.board.cpu.fetched.length
  operands : (s.found.board.clearRecord.execute s.found.instruction).cpu.fetched.length <
    maxInstructionBytes
  entry : ∃ e, s.step.entry? = some e ∧ e.address = s.cpu.regs.pc ∧
    e.bytes.toList = s.fetchedBytes.take maxInstructionBytes
  ahead : s.fetchedBytes = s.ahead s.fetchedBytes.length
  length_pos : 0 < s.fetchedBytes.length
  length_le : s.fetchedBytes.length ≤ 5
  longest_iff : s.fetchedBytes.length = 5 ↔ s.IsLongest
  pc : s.found.board.jumps s.found.instruction = false →
    s.step.board.cpu.regs.pc = s.cpu.regs.pc + UInt16.ofNat s.fetchedBytes.length
  fully_iff : s.TracesFully ↔ ¬s.IsLongest

/-- A step of a running processor is traced. -/
theorem tracesStep (hrun : s.cpu.halted = false) : s.TracesStep where
  opcodes := s.pc_found
  operands := s.length_fetched_operands_lt
  entry := entry?_step hrun
  ahead := s.fetchedBytes_eq_ahead
  length_pos := s.length_fetchedBytes.1
  length_le := s.length_fetchedBytes.2.1
  longest_iff := s.length_fetchedBytes.2.2
  pc := pc_step_of_not_jumps hrun
  fully_iff := tracesFully_iff hrun

/-- `LD (1234),BC` behind an index prefix. -/
def storeBehindIx : Board PortBus :=
  codeBoard [0xDD, 0xED, 0x43, 0x34, 0x12]

theorem isLongest_storeBehindIx : storeBehindIx.IsLongest := by
  have hcode : storeBehindIx.HasCode [0xDD, 0xED, 0x43, 0x34, 0x12] :=
    hasCode_codeBoard (by decide)
  have hfirst : storeBehindIx.nextByte = 0xDD := hcode.nextByte
  have hthird : storeBehindIx.load (storeBehindIx.cpu.regs.pc + 2) = 0x43 := hcode 2 _ rfl
  refine ⟨⟨?_, hcode 1 _ rfl⟩, ?_⟩
  · rw [hfirst]
    rfl
  · rw [hthird]
    decide

theorem tracesStep_storeBehindIx :
    storeBehindIx.cpu.halted = false ∧ storeBehindIx.TracesStep ∧
      storeBehindIx.fetchedBytes.length = 5 := by
  have hstep : storeBehindIx.TracesStep := tracesStep rfl
  exact ⟨rfl, hstep, hstep.longest_iff.2 isLongest_storeBehindIx⟩

/-- The last byte of an address is missing. -/
theorem not_forall_tracesFully :
    ¬∀ s : Board PortBus, s.cpu.halted = false → s.TracesFully :=
  fun h => (tracesFully_iff rfl).1 (h storeBehindIx rfl) isLongest_storeBehindIx

end Board

end EightBit.Z80
