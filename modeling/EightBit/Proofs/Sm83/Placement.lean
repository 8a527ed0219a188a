import EightBit.Proofs.Memory
import EightBit.Proofs.Shared.Branch
import EightBit.Proofs.Sm83.Costs
import EightBit.Proofs.Sm83.HaltBug

/-!
# Instructions and where they stand

An instruction is fetched byte by byte, so the address it stands at and the bytes it consists of
are scattered over its execution. This module brings them together: a step executes an instruction
with given bytes at a given address. Usually the address is the program counter, and the bytes are
those from there on. With the latch of the `HALT` bug set the first fetch does not move the program
counter, and what follows is read as if the instruction stood one address earlier, with its opcode
in the place of its second byte.

## Main definitions

* `Code`: the bytes an instruction may consist of, with the instruction they encode.
* `Board.carryOut`: the effect of an instruction whose operands are given.
* `Board.executeAt`: a step that executes an instruction with given bytes at a given address.
* `Board.repeatedCode`: the bytes read with the latch of the `HALT` bug set.

## Main results

* `Board.execute_eq_carryOut`: executing fetches the operands, and then carries out.
* `Board.step_eq_executeAt`: every step of a processor that is not idle is of this form.
* `Board.executesRepeated_of_latched`: the step with the latch of the `HALT` bug set.
-/

namespace EightBit.Sm83

/-! ### The bytes of an instruction -/

namespace Instruction

/-- The number of bytes fetched beyond the opcode. -/
def operandBytes : Instruction → Nat
  | .stop | .loadImm _ | .storeHighImm | .loadHighImm | .loadHlSp | .addSp | .aluImm _ | .jr
  | .jrIf _ => 1
  | .loadPairImm _ | .storeSp | .storeAbs | .loadAbs | .jp | .jpIf _ | .call | .callIf _ => 2
  | _ => 0

/-- The number of bytes of the opcode: two on the page behind the prefix. -/
def opcodeBytes : Instruction → Nat
  | .shift _ _ | .bit _ _ | .res _ _ | .set _ _ => 2
  | _ => 1

/-- The number of bytes of an instruction. -/
def length (i : Instruction) : Nat :=
  i.opcodeBytes + i.operandBytes

end Instruction

/-- The bytes that an instruction may consist of. Those beyond its length do not matter. -/
structure Code where
  opcode : UInt8
  second : UInt8
  third : UInt8
  deriving DecidableEq, Repr

namespace Code

/-- The instruction encoded, with its cost. -/
def entry (code : Code) : Entry :=
  Decode.entry code.opcode code.second

/-- The number of bytes that belong to the instruction. -/
def length (code : Code) : Nat :=
  code.entry.instruction.length

/-- The bytes that belong to the instruction. -/
def bytes (code : Code) : List UInt8 :=
  [code.opcode, code.second, code.third].take code.length

/-- The word behind an opcode of one byte. -/
def operandWord (code : Code) : UInt16 :=
  word code.third code.second

end Code

namespace Decode

theorem instruction_entry_of_cb {first : UInt8} (h : first = 0xCB) (second : UInt8) :
    (entry first second).instruction = (cb second).instruction := by
  subst h
  rfl

theorem instruction_primary_ne : ∀ {op}, op ≠ 0xCB → (primary op).instruction ≠ .prefixCb :=
  @(forall_byte (by decide))

theorem entry_of_ne_cb {first : UInt8} (h : first ≠ 0xCB) (second : UInt8) :
    entry first second = primary first := by
  unfold entry
  split
  next hi => exact absurd hi (instruction_primary_ne h)
  next => rfl

/-- An opcode without a prefix is one byte. -/
theorem opcodeBytes_primary : ∀ op, (primary op).instruction.opcodeBytes = 1 :=
  forall_byte (by decide)

/-- Behind the prefix there are no operands to fetch. -/
theorem length_cb : ∀ op, (cb op).instruction.opcodeBytes = 2 ∧
    (cb op).instruction.operandBytes = 0 :=
  forall_byte (by decide)

end Decode

namespace Board

variable {β : Type} [Bus β]

/-! ### Fetching -/

/-- The board with bytes recorded as fetched, the program counter behind them and the latch of the
`HALT` bug released. -/
def readTo (s : Board β) (pc : UInt16) (bytes : InstructionBytes) : Board β :=
  { s with
    cpu := { s.cpu with
      regs := { s.cpu.regs with pc := pc }
      haltBug := false
      fetched := bytes } }

/-- The address at which an instruction is taken to stand: the one before the program counter if
the first fetch does not move the program counter. -/
def origin (s : Board β) : UInt16 :=
  if s.cpu.haltBug then s.cpu.regs.pc - 1 else s.cpu.regs.pc

/-- The bytes that are read one after the other: the opcode at the program counter, and those
behind the address at which the instruction is taken to stand. -/
def code (s : Board β) : Code where
  opcode := s.nextByte
  second := s.load (s.origin + 1)
  third := s.load (s.origin + 2)

theorem skip_eq (s : Board β) :
    s.skip = s.readTo (s.origin + 1) (s.cpu.fetched.push s.nextByte) := by
  obtain ⟨cpu, bus⟩ := s
  rcases Bool.eq_false_or_eq_true cpu.haltBug with h | h
  · have hpc : cpu.regs.pc - 1 + 1 = cpu.regs.pc := UInt16.sub_add_cancel _ _
    simp [skip, readTo, origin, h, hpc]
  · simp [skip, readTo, origin, h]

theorem skip_readTo (s : Board β) (pc : UInt16) (bytes : InstructionBytes) :
    (s.readTo pc bytes).skip = s.readTo (pc + 1) (bytes.push (s.load pc)) := rfl

/-- Two fetches. -/
theorem skip_skip (s : Board β) :
    s.skip.skip = s.readTo (s.origin + 2)
      ((s.cpu.fetched.push s.nextByte).push (s.load (s.origin + 1))) := by
  rw [skip_eq s, skip_readTo, UInt16.add_assoc]
  rfl

/-! ### Carrying out an instruction -/

/-- The effect of an instruction whose operands are given: the byte `b`, or the word `w`. The
program counter is behind the instruction. -/
def carryOut (s : Board β) (b : UInt8) (w : UInt16) : Instruction → Board β
  | .stop => { s with cpu := { s.cpu with stopped := true, halted := false } }
  | .loadImm dst => s.setOperand dst b
  | .loadPairImm p => s.mapRegs (·.setPair p w)
  | .storeSp => { s with bus := writeWord s.bus w s.cpu.regs.sp }
  | .storeHighImm => s.store (highAddress b) s.cpu.regs.a
  | .loadHighImm => s.mapRegs ({ · with a := s.load (highAddress b) })
  | .storeAbs => s.store w s.cpu.regs.a
  | .loadAbs => s.mapRegs ({ · with a := s.load w })
  | .loadHlSp => s.mapRegs fun r => (r.spOffsetFlags b).setHl (r.spOffset b)
  | .addSp => s.mapRegs fun r => { r.spOffsetFlags b with sp := r.spOffset b }
  | .aluImm op => s.mapRegs (·.alu op b)
  | .jr => s.jumpTo (s.cpu.regs.pc + displacement b)
  | .jrIf cc =>
    if s.cpu.regs.holds cc then
      (s.jumpTo (s.cpu.regs.pc + displacement b)).charge takenCost.jr
    else s
  | .jp => s.jumpTo w
  | .jpIf cc => if s.cpu.regs.holds cc then (s.jumpTo w).charge takenCost.jp else s
  | .call => (s.push s.cpu.regs.pc).jumpTo w
  | .callIf cc =>
    if s.cpu.regs.holds cc then ((s.push s.cpu.regs.pc).jumpTo w).charge takenCost.call else s
  | i => s.execute i

/-- The board after fetching the first `n` of two bytes. -/
def readOperands (s : Board β) (pc : UInt16) (bytes : InstructionBytes) (n : Nat) : Board β :=
  s.readTo (pc + .ofNat n) (([s.load pc, s.load (pc + 1)].take n).foldl .push bytes)

theorem readOperands_zero (s : Board β) (pc : UInt16) (bytes : InstructionBytes) :
    s.readOperands pc bytes 0 = s.readTo pc bytes :=
  congrArg (s.readTo · bytes) (UInt16.add_zero pc)

theorem readOperands_two (s : Board β) (pc : UInt16) (bytes : InstructionBytes) :
    s.readOperands pc bytes 2 = (s.readTo pc bytes).skipWord :=
  congrArg (s.readTo · _) (UInt16.add_assoc pc 1 1).symm

/-- Executing an instruction fetches its operands, and then carries it out. -/
theorem execute_eq_carryOut (s : Board β) (pc : UInt16) (bytes : InstructionBytes)
    (i : Instruction) :
    (s.readTo pc bytes).execute i =
      (s.readOperands pc bytes i.operandBytes).carryOut
        (s.load pc) (word (s.load (pc + 1)) (s.load pc)) i := by
  have htwo := s.readOperands_two pc bytes
  cases i with
  | stop | loadImm | storeHighImm | loadHighImm | loadHlSp | addSp | aluImm | jr => rfl
  | jrIf => exact Branch.charged_eq (s.readTo pc bytes).jumpRelative (·.charge _) _
  | loadPairImm | storeSp | storeAbs | loadAbs | jp | call =>
    rw [Instruction.operandBytes, htwo]
    rfl
  | jpIf =>
    rw [Instruction.operandBytes, htwo]
    exact Branch.charged_eq (s.readTo pc bytes).jumpAbsolute (·.charge _) _
  | callIf =>
    rw [Instruction.operandBytes, htwo]
    exact Branch.charged_eq (s.readTo pc bytes).callIf (·.charge _) _
  | _ => exact congrArg (execute · _) (s.readOperands_zero pc bytes).symm

/-! ### Executing at an address -/

/-- The board with an instruction at the address `a` fetched, all bytes of it. -/
def placed (s : Board β) (a : UInt16) (code : Code) : Board β :=
  s.uncharge.begin.readTo (a + .ofNat code.length) (code.bytes.foldl .push s.cpu.fetched.clear)

/-- A step that executes the instruction with the bytes `code` as it stands at the address `a`. -/
def executeAt (s : Board β) (a : UInt16) (code : Code) : Stepped β :=
  let i := code.entry.instruction
  let t := (s.placed a code).carryOut code.second code.operandWord i
  { cycles := code.entry.cycles + t.cpu.extraCycles
    board := t.retire
    executed := some i }

/-- The entry decoded is that of the bytes read. -/
theorem decoded_fst_eq_entry (s : Board β) : s.decoded.1 = s.code.entry := by
  rw [decoded_fst, skip_eq]
  rfl

/-- Behind the prefix there is nothing to fetch, and carrying out is executing. -/
theorem carryOut_of_opcodeBytes (s : Board β) (b : UInt8) (w : UInt16) {i : Instruction}
    (hi : i.opcodeBytes = 2) : s.carryOut b w i = s.execute i := by
  cases i with
  | shift | bit | res | set => rfl
  | _ => exact absurd hi (show (1 : Nat) ≠ 2 by decide)

/-- Behind an opcode of one byte, fetching the operands goes on where fetching the opcode has
ended. -/
theorem readOperands_origin (s : Board β) (n : Nat) :
    s.readOperands (s.origin + 1) (s.cpu.fetched.push s.nextByte) n =
      s.readTo (s.origin + .ofNat (1 + n))
        (([s.code.opcode, s.code.second, s.code.third].take (1 + n)).foldl .push
          s.cpu.fetched) := by
  have hpc : s.origin + 1 + .ofNat n = s.origin + .ofNat (1 + n) := by
    rw [UInt16.ofNat_add, UInt16.add_assoc]
    rfl
  have hthird : s.origin + 1 + 1 = s.origin + 2 := UInt16.add_assoc _ 1 1
  rw [readOperands, hpc, hthird, Nat.add_comm 1 n, List.take_succ_cons, List.foldl_cons]
  rfl

/-- Decoding fetches the opcode, and executing the operands. -/
theorem execute_decoded (s : Board β) :
    s.decoded.2.execute s.code.entry.instruction =
      (s.readTo (s.origin + .ofNat s.code.length)
        (s.code.bytes.foldl .push s.cpu.fetched)).carryOut s.code.second s.code.operandWord
          s.code.entry.instruction := by
  by_cases h : s.nextByte = 0xCB
  · have hi : s.code.entry.instruction = _ := Decode.instruction_entry_of_cb h s.code.second
    obtain ⟨hopcode, hoperands⟩ := Decode.length_cb s.code.second
    rw [← hi] at hopcode hoperands
    have hlength : s.code.length = 2 := by
      rw [Code.length, Instruction.length, hopcode, hoperands]
    rw [(decoded_of_cb h).2, skip_skip, Code.bytes, hlength, carryOut_of_opcodeBytes _ _ _ hopcode]
    rfl
  · have he : s.code.entry = Decode.primary s.nextByte := Decode.entry_of_ne_cb h _
    have hopcode : s.code.entry.instruction.opcodeBytes = 1 := he ▸ Decode.opcodeBytes_primary _
    have hthird : s.origin + 1 + 1 = s.origin + 2 := UInt16.add_assoc _ 1 1
    have hskip : s.decoded.2 = s.skip := by
      rw [decoded_of_opcode rfl (Decode.instruction_primary_ne h)]
    rw [hskip, skip_eq, execute_eq_carryOut, readOperands_origin, Code.bytes, Code.length,
      Instruction.length, hopcode, hthird]
    rfl

/-- A step of a processor that is not idle executes the bytes it reads where they are taken to
stand. -/
theorem step_eq_executeAt {s : Board β} (hh : s.cpu.halted = false) (hs : s.cpu.stopped = false) :
    s.step = s.executeAt s.origin s.code := by
  rw [step_of_awake hh hs, executeNext]
  dsimp only
  rw [decoded_fst_eq_entry s.uncharge.begin, execute_decoded s.uncharge.begin]
  rfl

/-! ### Cost and flip-flops -/

theorem current_eq (s : Board β) : s.current = s.code.entry.instruction :=
  congrArg Entry.instruction (decoded_fst_eq_entry s.begin)

omit [Bus β] in
/-- The charge for a branch taken depends on the flags alone. -/
theorem surcharge_congr {s t : Board β} (h : s.cpu.regs.f = t.cpu.regs.f) (i : Instruction) :
    s.surcharge i = t.surcharge i := by
  have hholds (cc : Cond) : s.cpu.regs.holds cc = t.cpu.regs.holds cc := by
    cases cc <;> simp only [Registers.holds, Registers.flag, h]
  cases i with
  | jrIf cc | jpIf cc | callIf cc | retIf cc => rw [surcharge, surcharge, hholds]
  | _ => rfl

theorem f_decoded (s : Board β) : s.decoded.2.cpu.regs.f = s.cpu.regs.f := by
  unfold decoded
  dsimp only
  split
  · rw [skip_skip]
    rfl
  · rw [skip_eq]
    rfl

/-- The cost of a step that executes is that of the bytes read and the charge for a branch taken. -/
theorem cycles_step {s : Board β} (hh : s.cpu.halted = false) (hs : s.cpu.stopped = false) :
    s.step.cycles = s.code.entry.cycles + s.surcharge s.code.entry.instruction := by
  have hflags : s.uncharge.begin.decoded.2.cpu.regs.f = s.cpu.regs.f := f_decoded s.uncharge.begin
  have hcode : s.uncharge.begin.code = s.code := rfl
  rw [cycles_step_of_awake s hh hs, decoded_fst_eq_entry, surcharge_congr hflags, hcode]

/-! ### The latch set -/

/-- The bytes read with the latch of the `HALT` bug set: the opcode stands in the place of the
second byte, too. -/
def repeatedCode (s : Board β) : Code where
  opcode := s.nextByte
  second := s.nextByte
  third := s.load (s.cpu.regs.pc + 1)

/-- The bytes from the program counter on. -/
def codeInOrder (s : Board β) : Code where
  opcode := s.nextByte
  second := s.load (s.cpu.regs.pc + 1)
  third := s.load (s.cpu.regs.pc + 2)

omit [Bus β] in
theorem origin_of_latched {s : Board β} (h : s.cpu.haltBug = true) :
    s.origin = s.cpu.regs.pc - 1 :=
  if_pos h

theorem code_of_latched {s : Board β} (h : s.cpu.haltBug = true) : s.code = s.repeatedCode := by
  have hsecond : s.cpu.regs.pc - 1 + 1 = s.cpu.regs.pc := UInt16.sub_add_cancel _ _
  have hthird : s.cpu.regs.pc - 1 + 2 = s.cpu.regs.pc + 1 := by
    rw [show (2 : UInt16) = 1 + 1 from rfl, ← UInt16.add_assoc, hsecond]
  rw [code, origin_of_latched h, hsecond, hthird]
  rfl

omit [Bus β] in
theorem Executes.origin {s : Board β} (h : s.Executes) : s.origin = s.cpu.regs.pc :=
  if_neg (Bool.eq_false_iff.1 h.haltBug)

theorem Executes.code {s : Board β} (h : s.Executes) : s.code = s.codeInOrder := by
  rw [Board.code, h.origin]
  rfl

/-- With the latch clear an instruction stands at the program counter. -/
theorem Executes.step_eq_executeAt {s : Board β} (h : s.Executes) :
    s.step = s.executeAt s.cpu.regs.pc s.codeInOrder := by
  rw [Board.step_eq_executeAt h.halted h.stopped, h.origin, h.code]

/-- The flip-flops after a step that executes. -/
theorem control_step_of_awake {s : Board β} (hh : s.cpu.halted = false)
    (hs : s.cpu.stopped = false) :
    s.step.board.cpu.control =
      (s.cpu.control.release.execute s.pending s.code.entry.instruction).advance := by
  rw [control_step, Control.step_of_awake hh hs, current_eq]

/-- The step with the latch of the `HALT` bug set, compared with the steps of boards `t` that have
it clear. -/
structure ExecutesRepeated (s : Board β) : Prop where
  /-- The instruction executed begins with its opcode twice, and stands one address early. -/
  step : s.step = s.executeAt (s.cpu.regs.pc - 1) s.repeatedCode
  /-- Otherwise the instruction executed stands at the program counter. -/
  step_inOrder : ∀ t : Board β, t.Executes → t.step = t.executeAt t.cpu.regs.pc t.codeInOrder
  /-- The latch is clear afterwards, unless a `HALT` sets it again. -/
  haltBug : s.step.board.cpu.haltBug = true ↔
    s.repeatedCode.entry.instruction = .halt ∧ s.pending = true ∧ s.cpu.ime = false
  /-- The same instruction changes the same flip-flops, the schedule of `EI` among them. -/
  control : ∀ t : Board β, t.Executes → t.codeInOrder.entry = s.repeatedCode.entry →
    t.cpu.control = s.cpu.control.release → t.pending = s.pending →
    s.step.board.cpu.control = t.step.board.cpu.control
  /-- The same instruction costs the same. -/
  cycles : ∀ t : Board β, t.Executes → t.codeInOrder.entry = s.repeatedCode.entry →
    t.cpu.regs.f = s.cpu.regs.f → s.step.cycles = t.step.cycles

/-- **The `HALT` bug.** With the latch set, a step executes the instruction whose opcode is the byte
at the program counter and whose other bytes are read from there once more, as if it stood one
address earlier. The latch is clear afterwards unless that instruction is a `HALT` that sets it
again; the cost and the schedule of `EI` are those of the instruction executed as usual. -/
theorem executesRepeated_of_latched {s : Board β} (hh : s.cpu.halted = false)
    (hs : s.cpu.stopped = false) (hl : s.cpu.haltBug = true) : s.ExecutesRepeated where
  step := by rw [step_eq_executeAt hh hs, origin_of_latched hl, code_of_latched hl]
  step_inOrder t ht := ht.step_eq_executeAt
  haltBug := by
    have hcontrol := congrArg Control.haltBug (control_step_of_awake hh hs)
    rw [Control.advance_haltBug, code_of_latched hl] at hcontrol
    refine Iff.trans ?_ (Control.execute_haltBug_iff s.cpu.control s.pending _)
    rw [← hcontrol]
    rfl
  control t ht hentry hcontrol hpending := by
    rw [control_step_of_awake hh hs, control_step_of_awake ht.halted ht.stopped, hcontrol, hpending,
      ht.code, hentry, code_of_latched hl, Control.release_release]
  cycles t ht hentry hflags := by
    rw [cycles_step hh hs, cycles_step ht.halted ht.stopped, ht.code, hentry, code_of_latched hl,
      surcharge_congr hflags]

/-- The prefix stands in the place of the opcode behind it. -/
example : Decode.entry 0xCB 0xCB = ⟨8, .set 1 .e⟩ := by decide

/-- A board with the latch set at a `CALL`, whose opcode becomes the lower byte of the address
called. -/
def latchedCallBoard : Board FlatBus :=
  let memory := ((Memory.blank.write 0x0100 0xCD).write 0x0101 0x34).write 0x0102 0x12
  { cpu := (Cpu.create .dmg).latchHaltBug, bus := .ofMemory memory .silent }

theorem repeatedCode_latchedCallBoard :
    latchedCallBoard.repeatedCode = ⟨0xCD, 0xCD, 0x34⟩ := by
  have hopcode : latchedCallBoard.bus.memory.read 0x0100 = 0xCD := by
    simp [latchedCallBoard, FlatBus.ofMemory, Memory.read_write]
  have hthird : latchedCallBoard.bus.memory.read 0x0101 = 0x34 := by
    simp [latchedCallBoard, FlatBus.ofMemory, Memory.read_write]
  calc latchedCallBoard.repeatedCode
      = ⟨latchedCallBoard.bus.memory.read 0x0100, latchedCallBoard.bus.memory.read 0x0100,
          latchedCallBoard.bus.memory.read 0x0101⟩ := rfl
    _ = _ := by rw [hopcode, hthird]

/-- The return address is the one behind a call that stands one address early. -/
theorem executesRepeated_latchedCallBoard :
    latchedCallBoard.cpu.haltBug = true ∧ latchedCallBoard.ExecutesRepeated ∧
      latchedCallBoard.step.executed = some .call ∧ latchedCallBoard.step.cycles = 24 ∧
      latchedCallBoard.step.board.cpu.regs.pc = 0x34CD ∧
      latchedCallBoard.step.board.stackTop = 0x0102 := by
  have h : latchedCallBoard.ExecutesRepeated := executesRepeated_of_latched rfl rfl rfl
  have hstep := h.step
  rw [repeatedCode_latchedCallBoard] at hstep
  refine ⟨rfl, h, ?_, ?_, ?_, ?_⟩
  · rw [hstep]; rfl
  · rw [hstep]; rfl
  · rw [hstep]; rfl
  · rw [hstep]
    exact FlatBus.readWord_pushWord _ _ _

end Board

end EightBit.Sm83
