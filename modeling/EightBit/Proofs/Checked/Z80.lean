import EightBit.Proofs.Checked.Arithmetic
import EightBit.Proofs.Z80.Costs

/-!
# The Z80 stays within its types

Sums and differences of bytes are computed in words, those of words in double words; half carries
are computed in the type of the operands. Bit numbers become masks, and the cycles of a step are
added up in a double word, look-up by look-up and charge by charge. In every state of the processor,
whatever it is connected to, each of these fits. The other instructions, and the acceptance of an
interrupt, compute with operations that wrap, or with none.

## Main definitions

* `Instruction.bitNumber`: the bit number that an instruction names.
* `Registers.aluChecked` and others, `Board.executeChecked`: arithmetic, and an instruction.
* `Board.decodedChecked`, `Board.stepChecked`: the search for the instruction, and a step.

## Main results

* `Board.executeChecked_eq`: an instruction whose bit number is that of a byte stays within its
  types.
* `Board.decodedChecked_eq`, `Board.stepChecked_eq`: so do the search and a step.
-/

namespace EightBit.Z80

/-! ### Registers and flags -/

/-- The position of a flag in the flag register. -/
def Flag.position : Flag → Nat
  | .s => 7
  | .z => 6
  | .h => 4
  | .pv => 2
  | .n => 1
  | .c => 0

/-- `Flag.mask` from the position of the flag. -/
def Flag.maskChecked (x : Flag) : Checked UInt8 := do
  let mask ← Checked.bit 8 x.position
  return .ofNat mask

theorem Flag.maskChecked_eq (x : Flag) : x.maskChecked = .ok x.mask := by
  cases x <;> rfl

namespace Registers

variable (r : Registers)

/-- `Registers.add` with the checked adder. -/
def addChecked (v : UInt8) (withCarry : Bool) : Checked Registers := do
  let s ← addBytesChecked r.a v (r.carryIn withCarry)
  return { r with a := s.result, f := sumFlags s false }

/-- `Registers.sub` with the checked adder. -/
def subChecked (v : UInt8) (withCarry : Bool) : Checked Registers := do
  let s ← subBytesChecked r.a v (r.carryIn withCarry)
  return { r with a := s.result, f := sumFlags s true }

/-- `Registers.compare` with the checked adder. -/
def compareChecked (v : UInt8) : Checked Registers := do
  let s ← subBytesChecked r.a v false
  return { r with f := sumFlags s true }

/-- `Registers.alu`, of which the bitwise operations leave no type. -/
def aluChecked (op : AluOp) (v : UInt8) : Checked Registers :=
  match op with
  | .add => r.addChecked v false
  | .adc => r.addChecked v true
  | .sub => r.subChecked v false
  | .sbc => r.subChecked v true
  | .cp => r.compareChecked v
  | op => return r.alu op v

/-- `Registers.negate` with the checked adder. -/
def negateChecked : Checked Registers := do
  let s ← subBytesChecked 0 r.a false
  return { r with a := s.result, f := sumFlags s true }

/-- `Registers.addIndex` with the checked adder. -/
def addIndexChecked (m : IndexMode) (v : UInt16) : Checked Registers := do
  let s ← addWordsChecked (r.index m) v false
  return (r.setFlags [(.n, false), (.h, s.half), (.c, s.carry)]).setIndex m s.result

/-- `Registers.addWithCarry` with the checked adder. -/
def addWithCarryChecked (v : UInt16) : Checked Registers := do
  let s ← addWordsChecked r.hl v (r.flag .c)
  return { r with f := wordSumFlags s false }.setHl s.result

/-- `Registers.subWithCarry` with the checked adder. -/
def subWithCarryChecked (v : UInt16) : Checked Registers := do
  let s ← subWordsChecked r.hl v (r.flag .c)
  return { r with f := wordSumFlags s true }.setHl s.result

/-- `Registers.bitFlags` with the mask computed from the bit number. -/
def bitFlagsChecked (k v : UInt8) : Checked Registers := do
  let mask ← bitMaskChecked k
  let isSet := v &&& mask != 0
  return r.setFlags
    [(.z, !isSet), (.pv, !isSet), (.s, k == 7 && isSet), (.h, true), (.n, false)]

theorem addChecked_eq (v : UInt8) (withCarry : Bool) :
    r.addChecked v withCarry = .ok (r.add v withCarry) := by
  rw [addChecked, addBytesChecked_eq]
  rfl

theorem subChecked_eq (v : UInt8) (withCarry : Bool) :
    r.subChecked v withCarry = .ok (r.sub v withCarry) := by
  rw [subChecked, subBytesChecked_eq]
  rfl

theorem compareChecked_eq (v : UInt8) : r.compareChecked v = .ok (r.compare v) := by
  rw [compareChecked, subBytesChecked_eq]
  rfl

theorem aluChecked_eq (op : AluOp) (v : UInt8) : r.aluChecked op v = .ok (r.alu op v) := by
  cases op with
  | add => exact r.addChecked_eq v false
  | adc => exact r.addChecked_eq v true
  | sub => exact r.subChecked_eq v false
  | sbc => exact r.subChecked_eq v true
  | cp => exact r.compareChecked_eq v
  | _ => rfl

theorem negateChecked_eq : r.negateChecked = .ok r.negate := by
  rw [negateChecked, subBytesChecked_eq]
  rfl

theorem addIndexChecked_eq (m : IndexMode) (v : UInt16) :
    r.addIndexChecked m v = .ok (r.addIndex m v) := by
  rw [addIndexChecked, addWordsChecked_eq]
  rfl

theorem addWithCarryChecked_eq (v : UInt16) :
    r.addWithCarryChecked v = .ok (r.addWithCarry v) := by
  rw [addWithCarryChecked, addWordsChecked_eq]
  rfl

theorem subWithCarryChecked_eq (v : UInt16) :
    r.subWithCarryChecked v = .ok (r.subWithCarry v) := by
  rw [subWithCarryChecked, subWordsChecked_eq]
  rfl

theorem bitFlagsChecked_eq {k : UInt8} (h : k < 8) (v : UInt8) :
    r.bitFlagsChecked k v = .ok (r.bitFlags k v) := by
  rw [bitFlagsChecked, bitMaskChecked_eq h]
  rfl

end Registers

/-! ### Instructions -/

/-- The bit number that an instruction names, and zero for an instruction without one. -/
def Instruction.bitNumber : Instruction → UInt8
  | .bit k _ | .res k _ | .set k _ => k
  | .indexBit k | .indexRes k _ | .indexSet k _ => k
  | _ => 0

namespace Decode

/-- The pages name bits of a byte only. -/
theorem bitNumber_primary_lt : ∀ op, (primary op).instruction.bitNumber < 8 :=
  forall_byte (by decide)

theorem bitNumber_index_lt : ∀ op, (index op).instruction.bitNumber < 8 :=
  forall_byte (by decide)

theorem bitNumber_ed_lt : ∀ op, (ed op).instruction.bitNumber < 8 :=
  forall_byte (by decide)

theorem bitNumber_cb_lt : ∀ op, (cb op).instruction.bitNumber < 8 :=
  forall_byte (by decide)

theorem bitNumber_indexCb_lt : ∀ op, (indexCb op).instruction.bitNumber < 8 :=
  forall_byte (by decide)

end Decode

namespace Board

variable {β : Type} (s : Board β)

/-- Changes the registers by a checked computation. -/
def mapRegsChecked (f : Registers → Checked Registers) : Checked (Board β) := do
  let regs ← f s.cpu.regs
  return { s with cpu := { s.cpu with regs := regs } }

/-- `Board.chargeIf` with the cycles added up in a double word. -/
def chargeIfChecked (taken : Bool) (n : Nat) : Checked (Board β) :=
  if taken then do
    let total ← Checked.sum 32 s.cpu.extraCycles n
    return { s with cpu := { s.cpu with extraCycles := total } }
  else return s

theorem mapRegsChecked_eq {f : Registers → Checked Registers} {g : Registers → Registers}
    (h : ∀ r, f r = .ok (g r)) : s.mapRegsChecked f = .ok (s.mapRegs g) := by
  rw [mapRegsChecked, h]
  rfl

variable {s} in
/-- A charge fits if nothing has been charged before. -/
theorem chargeIfChecked_eq (h : s.cpu.extraCycles = 0) (taken : Bool) {n : Nat} (hn : n < 2 ^ 32) :
    s.chargeIfChecked taken n = .ok (s.chargeIf taken n) := by
  cases taken with
  | false => rfl
  | true =>
    have hsum : s.cpu.extraCycles + n < 2 ^ 32 := by rwa [h, Nat.zero_add]
    rw [chargeIfChecked, if_pos rfl, Checked.sum_eq hsum]
    rfl

variable [Bus β]

/-- `Board.block` with the repetition charged in a double word. -/
def blockChecked (op : BlockOp) (increment repeats : Bool) : Checked (Board β) :=
  let (again, t) := s.blockByte op increment
  if repeats && again then (t.jumpTo (t.cpu.regs.pc - 2)).chargeIfChecked true repeatCost
  else return t

/-- `Board.execute`, with a checked computation for each instruction whose arithmetic may leave its
type. -/
def executeChecked (i : Instruction) : Checked (Board β) :=
  match i with
  | .addHl p => s.mapRegsChecked (·.addIndexChecked s.cpu.mode (s.pairValue p))
  | .alu op src =>
    let s := s.aim src
    s.mapRegsChecked (·.aluChecked op (s.operand src))
  | .aluImm op => s.skip.mapRegsChecked (·.aluChecked op s.nextByte)
  | .djnz =>
    let s := s.mapRegs fun r => { r with b := r.b - 1 }
    let taken := s.cpu.regs.b != 0
    (s.jumpRelative taken).chargeIfChecked taken takenCost.djnz
  | .jrIf cc =>
    let taken := s.cpu.regs.holds cc
    (s.jumpRelative taken).chargeIfChecked taken takenCost.jr
  | .jpIf cc =>
    let taken := s.cpu.regs.holds cc
    (s.jumpAbsolute taken).chargeIfChecked taken takenCost.jp
  | .callIf cc =>
    let taken := s.cpu.regs.holds cc
    (s.callIf taken).chargeIfChecked taken takenCost.call
  | .retIf cc =>
    let taken := s.cpu.regs.holds cc
    (s.returnIf taken).chargeIfChecked taken takenCost.ret
  | .bit k x =>
    let s := s.aim x
    s.mapRegsChecked (·.bitFlagsChecked k (s.operand x))
  | .res k x => do
    let mask ← bitMaskChecked k
    return s.update x (fun _ v => v &&& ~~~mask) (fun r _ => r)
  | .set k x => do
    let mask ← bitMaskChecked k
    return s.update x (fun _ v => v ||| mask) (fun r _ => r)
  | .indexBit k => s.mapRegsChecked (·.bitFlagsChecked k (s.load s.pointer))
  | .indexRes k copy => do
    let mask ← bitMaskChecked k
    return s.updateIndexed copy (fun _ v => v &&& ~~~mask) (fun r _ => r)
  | .indexSet k copy => do
    let mask ← bitMaskChecked k
    return s.updateIndexed copy (fun _ v => v ||| mask) (fun r _ => r)
  | .sbcHl p => s.mapRegsChecked fun r => r.subWithCarryChecked (r.pair p)
  | .adcHl p => s.mapRegsChecked fun r => r.addWithCarryChecked (r.pair p)
  | .neg => s.mapRegsChecked (·.negateChecked)
  | .block op increment repeats => s.blockChecked op increment repeats
  | i => return s.execute i

variable {s} in
theorem blockChecked_eq (hextra : s.cpu.extraCycles = 0) (op : BlockOp)
    (increment repeats : Bool) :
    s.blockChecked op increment repeats = .ok (s.block op increment repeats) := by
  have hbyte := (s.extraCycles_blockByte op increment).trans hextra
  rw [blockChecked, block_eq]
  generalize s.blockByte op increment = result at hbyte
  obtain ⟨again, t⟩ := result
  have hjump : (t.jumpTo (t.cpu.regs.pc - 2)).cpu.extraCycles = 0 := hbyte
  have hcharge := chargeIfChecked_eq hjump true (n := repeatCost) (by decide)
  cases repeats with
  | false => rfl
  | true =>
    cases again with
    | false => rfl
    | true => exact hcharge

variable {s} in
/-- An instruction that starts with no cycles charged and names a bit of a byte, if it names one,
stays within its types. -/
theorem executeChecked_eq (hextra : s.cpu.extraCycles = 0) {i : Instruction}
    (hbit : i.bitNumber < 8) : s.executeChecked i = .ok (s.execute i) := by
  cases i with
  | addHl p => exact mapRegsChecked_eq s fun r => r.addIndexChecked_eq _ _
  | alu op src => exact mapRegsChecked_eq (s.aim src) fun r => r.aluChecked_eq op _
  | aluImm op => exact mapRegsChecked_eq s.skip fun r => r.aluChecked_eq op _
  | djnz =>
    let t := s.mapRegs fun r => { r with b := r.b - 1 }
    have hcount : t.cpu.extraCycles = 0 := hextra
    have hjump := (t.extraCycles_jumpRelative (t.cpu.regs.b != 0)).trans hcount
    exact chargeIfChecked_eq hjump (t.cpu.regs.b != 0) (n := takenCost.djnz) (by decide)
  | jrIf cc =>
    have hjump := (s.extraCycles_jumpRelative (s.cpu.regs.holds cc)).trans hextra
    exact chargeIfChecked_eq hjump (s.cpu.regs.holds cc) (n := takenCost.jr) (by decide)
  | jpIf cc =>
    have hjump := (s.extraCycles_jumpAbsolute (s.cpu.regs.holds cc)).trans hextra
    exact chargeIfChecked_eq hjump (s.cpu.regs.holds cc) (n := takenCost.jp) (by decide)
  | callIf cc =>
    have hcall := (s.extraCycles_callIf (s.cpu.regs.holds cc)).trans hextra
    exact chargeIfChecked_eq hcall (s.cpu.regs.holds cc) (n := takenCost.call) (by decide)
  | retIf cc =>
    have hreturn := (s.extraCycles_returnIf (s.cpu.regs.holds cc)).trans hextra
    exact chargeIfChecked_eq hreturn (s.cpu.regs.holds cc) (n := takenCost.ret) (by decide)
  | bit k x => exact mapRegsChecked_eq (s.aim x) fun r => r.bitFlagsChecked_eq hbit _
  | indexBit k => exact mapRegsChecked_eq s fun r => r.bitFlagsChecked_eq hbit _
  | res | set | indexRes | indexSet => exact bind_bitMaskChecked hbit _
  | sbcHl p => exact mapRegsChecked_eq s fun r => r.subWithCarryChecked_eq (r.pair p)
  | adcHl p => exact mapRegsChecked_eq s fun r => r.addWithCarryChecked_eq (r.pair p)
  | neg => exact mapRegsChecked_eq s fun r => r.negateChecked_eq
  | block op increment repeats => exact blockChecked_eq hextra op increment repeats
  | _ => rfl

end Board

/-! ### The search -/

namespace Decoding

variable {β : Type} [Bus β] (d : Decoding β)

/-- `Decoding.lookUp` with the costs added up in a double word. -/
def lookUpChecked (page : UInt8 → Entry) (s : Board β) : Checked (Decoding β) := do
  let e ← Checked.entry page s.nextByte
  let cycles ← Checked.sum 32 d.cycles e.cycles
  return ⟨cycles, e.instruction, s.skipOpcode⟩

/-- `Decoding.followIndex` with a checked look-up. -/
def followIndexChecked (m : IndexMode) : Checked (Option (Decoding β)) :=
  if isIndexPrefix d.board.nextByte then return none
  else do
    let e ← d.lookUpChecked Decode.index (d.board.setMode m)
    return some e

/-- `Decoding.next?` with a checked look-up. -/
def nextChecked : Checked (Option (Decoding β)) :=
  match d.instruction with
  | .prefixIx => d.followIndexChecked .ix
  | .prefixIy => d.followIndexChecked .iy
  | .prefixEd => do
    let e ← d.lookUpChecked Decode.ed (d.board.setMode .hl)
    return some e
  | .prefixCb => do
    let e ← d.lookUpChecked Decode.cb d.board
    return some e
  | .prefixIndexCb => do
    let e ← Checked.entry Decode.indexCb d.board.skip.nextByte
    let cycles ← Checked.sum 32 d.cycles e.cycles
    return some ⟨cycles, e.instruction, d.board.skipIndexCb⟩
  | _ => return none

/-- `Decoding.resolve` with checked look-ups. -/
def resolveChecked : (n : Nat) → Decoding β → Checked (Decoding β)
  | 0, d => return d
  | n + 1, d => do
    match ← d.nextChecked with
    | some e => e.resolveChecked n
    | none => return d

variable {d}

section

variable (hd : d.costBound ≤ maxStepCycles)

include hd

omit [Bus β] in
/-- The cost of an entry can be added to what has been found so far. -/
theorem sum_cycles_eq {e : Entry} {n : Nat} (he : e.cycles + e.instruction.outstanding ≤ n)
    (hn : n < 2 ^ 16) : Checked.sum 32 d.cycles e.cycles = .ok (d.cycles + e.cycles) := by
  have hcycles : d.cycles ≤ 25 := Nat.le_trans (Nat.le_add_right _ _) hd
  exact Checked.sum_eq (by omega)

theorem lookUpChecked_eq {page : UInt8 → Entry} {s : Board β} {n : Nat}
    (hpage : (page s.nextByte).cycles + (page s.nextByte).instruction.outstanding ≤ n)
    (hn : n < 2 ^ 16) : d.lookUpChecked page s = .ok (d.lookUp page s) := by
  rw [lookUpChecked, Checked.entry_eq, Checked.ok_bind, sum_cycles_eq hd hpage hn]
  rfl

theorem followIndexChecked_eq (m : IndexMode) :
    d.followIndexChecked m = .ok (d.followIndex m) := by
  rw [followIndexChecked, followIndex]
  split
  next => rfl
  next hnext =>
    have hcost := Decode.cost_index_le _ (Bool.eq_false_iff.2 hnext)
    rw [lookUpChecked_eq (s := d.board.setMode m) hd hcost (by decide)]
    rfl

theorem nextChecked_eq : d.nextChecked = .ok d.next? := by
  obtain ⟨cycles, i, board⟩ := d
  cases i with
  | prefixIx => exact followIndexChecked_eq hd .ix
  | prefixIy => exact followIndexChecked_eq hd .iy
  | prefixEd =>
    rw [nextChecked, lookUpChecked_eq hd (Decode.cost_ed_le _) (by decide)]
    rfl
  | prefixCb =>
    rw [nextChecked, lookUpChecked_eq hd (Decode.cost_cb_le _) (by decide)]
    rfl
  | prefixIndexCb =>
    have hsum := sum_cycles_eq hd (Decode.cost_indexCb_le board.skip.nextByte) (by decide)
    rw [nextChecked]
    dsimp only at hsum ⊢
    rw [Checked.entry_eq, Checked.ok_bind, hsum]
    rfl
  | _ => rfl

end

/-- Look-ups fit as long as what has been found bounds what is to come. -/
theorem resolveChecked_eq (hd : d.costBound ≤ maxStepCycles) (n : Nat) :
    d.resolveChecked n = .ok (d.resolve n) := by
  induction n generalizing d with
  | zero => rfl
  | succ n ih =>
    rw [resolveChecked, resolve, nextChecked_eq hd, Checked.ok_bind]
    cases h : d.next? with
    | none => rfl
    | some e => exact ih (Nat.le_trans (costBound_of_next? h) hd)

/-- A look-up finds an instruction of a page. -/
theorem bitNumber_of_next? {e : Decoding β} (h : d.next? = some e) :
    e.instruction.bitNumber < 8 := by
  obtain ⟨-, -, m, rfl⟩ | ⟨-, rfl⟩ | ⟨-, rfl⟩ | ⟨-, hi, -⟩ := next?_cases h
  · exact Decode.bitNumber_index_lt _
  · exact Decode.bitNumber_ed_lt _
  · exact Decode.bitNumber_cb_lt _
  · rw [hi]
    exact Decode.bitNumber_indexCb_lt _

end Decoding

/-! ### Steps -/

namespace Board

variable {β : Type} [Bus β] (s : Board β)

/-- `Board.decoded` with checked look-ups. -/
def decodedChecked : Checked (Decoding β) := do
  let e ← Checked.entry Decode.primary s.nextByte
  Decoding.resolveChecked maxLookUps ⟨e.cycles, e.instruction, s.skipOpcode⟩

/-- `Board.executeNext` with a checked search, instruction and sum of the cycles. -/
def executeNextChecked : Checked (Stepped β) := do
  let d ← s.begin.decodedChecked
  let mode := d.board.cpu.mode
  let s ← d.board.executeChecked d.instruction
  let cycles ← Checked.sum 32 d.cycles s.cpu.extraCycles
  return { cycles, board := s.settle, executed := some (mode, d.instruction) }

/-- `Board.step` with a checked instruction. -/
def stepChecked : Checked (Stepped β) :=
  let s := { s with cpu := { s.cpu with extraCycles := 0, eiShadow := false } }
  if s.cpu.halted then return ⟨idleCycles, s.mapRegs (·.refresh), none⟩
  else s.executeNextChecked

/-- The search stays within its types. -/
theorem decodedChecked_eq : s.decodedChecked = .ok s.decoded := by
  rw [decodedChecked, Checked.entry_eq, Checked.ok_bind]
  exact Decoding.resolveChecked_eq s.costBound_decodeFirst_le maxLookUps

theorem bitNumber_decoded_lt : s.decoded.instruction.bitNumber < 8 :=
  Decoding.resolve_induction (P := fun d => d.instruction.bitNumber < 8)
    (Decode.bitNumber_primary_lt _) (fun _ _ h _ => Decoding.bitNumber_of_next? h) _

variable {s} in
theorem executeNextChecked_eq (h : s.cpu.extraCycles = 0) :
    s.executeNextChecked = .ok s.executeNext := by
  have hcycles : s.begin.decoded.cycles +
      (s.begin.decoded.board.execute s.begin.decoded.instruction).cpu.extraCycles < 2 ^ 32 :=
    Nat.lt_of_le_of_lt (cycles_executeNext_le h) (by decide)
  rw [executeNextChecked, decodedChecked_eq, Checked.ok_bind,
    executeChecked_eq (extraCycles_decoded h) (bitNumber_decoded_lt _), Checked.ok_bind,
    Checked.sum_eq hcycles]
  rfl

/-- A step stays within its types. -/
theorem stepChecked_eq : s.stepChecked = .ok s.step := by
  rw [stepChecked, step]
  cases s.cpu.halted with
  | true => rfl
  | false => exact executeNextChecked_eq rfl

end Board

end EightBit.Z80
