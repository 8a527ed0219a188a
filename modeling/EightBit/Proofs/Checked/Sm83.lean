import EightBit.Proofs.Checked.Arithmetic
import EightBit.Proofs.Sm83.Costs

/-!
# The SM83 stays within its types

The half carries of additions are computed in a byte or a word, bit numbers become masks, the cycles
of a step are added up in a double word, and the vector of an interrupt is computed in a word from
the position of its request. In every state of the processor, whatever it is connected to, each of
these fits. The other instructions compute with operations that wrap, or with none.

## Main definitions

* `Instruction.bitNumber`: the bit number that an instruction names.
* `Registers.aluChecked` and others, `Board.executeChecked`: arithmetic, and an instruction.
* `Board.decodedChecked`, `Board.stepChecked`: the decoder and a step.
* `Interrupts.highestChecked`, `InterruptSource.vectorChecked`, `Board.handleInterruptsChecked`: the
  interrupt logic.

## Main results

* `Board.executeChecked_eq`: an instruction whose bit number is that of a byte stays within its
  types.
* `Board.stepChecked_eq`, `Board.handleInterruptsChecked_eq`: so do a step and the interrupt logic.
-/

namespace EightBit.Sm83

/-! ### Registers and flags -/

/-- The position of a flag in the flag register. -/
def Flag.position : Flag → Nat
  | .z => 7
  | .n => 6
  | .h => 5
  | .c => 4

/-- `Flag.mask` from the position of the flag. -/
def Flag.maskChecked (x : Flag) : Checked UInt8 := do
  let mask ← Checked.bit 8 x.position
  return .ofNat mask

theorem Flag.maskChecked_eq (x : Flag) : x.maskChecked = .ok x.mask := by
  cases x <;> rfl

namespace Registers

variable (r : Registers)

/-- `Registers.add` with the half carry computed in a byte. -/
def addChecked (v : UInt8) (withCarry : Bool) : Checked Registers := do
  let s := addBytes r.a v (r.carryIn withCarry)
  let half ← nibbleSumChecked r.a v (r.carryIn withCarry)
  return { r with a := s.result, f := flagByte (s.result == 0) false (0x0F < half) s.carry }

/-- `Registers.alu`, of which only additions may leave a type. -/
def aluChecked (op : AluOp) (v : UInt8) : Checked Registers :=
  match op with
  | .add => r.addChecked v false
  | .adc => r.addChecked v true
  | op => return r.alu op v

/-- `Registers.addHl` with the half carry computed in a word. -/
def addHlChecked (v : UInt16) : Checked Registers := do
  let s := addWords r.hl v false
  let half ← lowSumChecked r.hl v false
  return { r with f := flagByte (r.flag .z) false (0x0FFF < half) s.carry }.setHl s.result

/-- `Registers.spOffsetFlags` with the half carry computed in a byte. -/
def spOffsetFlagsChecked (d : UInt8) : Checked Registers := do
  let s := addBytes (loByte r.sp) d false
  let half ← nibbleSumChecked (loByte r.sp) d false
  return { r with f := flagByte false false (0x0F < half) s.carry }

/-- `Registers.bitFlags` with the mask computed from the bit number. -/
def bitFlagsChecked (k v : UInt8) : Checked Registers := do
  let mask ← bitMaskChecked k
  return ((r.setFlag .z (v &&& mask == 0)).setFlag .n false).setFlag .h true

theorem addChecked_eq (v : UInt8) (withCarry : Bool) :
    r.addChecked v withCarry = .ok (r.add v withCarry) := by
  rw [addChecked, nibbleSumChecked_eq]
  rfl

theorem aluChecked_eq (op : AluOp) (v : UInt8) : r.aluChecked op v = .ok (r.alu op v) := by
  cases op with
  | add => exact r.addChecked_eq v false
  | adc => exact r.addChecked_eq v true
  | _ => rfl

theorem addHlChecked_eq (v : UInt16) : r.addHlChecked v = .ok (r.addHl v) := by
  rw [addHlChecked, lowSumChecked_eq]
  rfl

theorem spOffsetFlagsChecked_eq (d : UInt8) :
    r.spOffsetFlagsChecked d = .ok (r.spOffsetFlags d) := by
  rw [spOffsetFlagsChecked, nibbleSumChecked_eq]
  rfl

theorem bitFlagsChecked_eq {k : UInt8} (h : k < 8) (v : UInt8) :
    r.bitFlagsChecked k v = .ok (r.bitFlags k v) := by
  rw [bitFlagsChecked, bitMaskChecked_eq h]
  rfl

end Registers

/-! ### Instructions -/

/-- The bit number that an instruction names, and zero for an instruction without one. -/
def Instruction.bitNumber : Instruction → UInt8
  | .bit k _ | .res k _ | .set k _ => k
  | _ => 0

/-- The pages name bits of a byte only. -/
theorem Decode.bitNumber_primary_lt : ∀ op, (primary op).instruction.bitNumber < 8 :=
  forall_byte (by decide)

theorem Decode.bitNumber_cb_lt : ∀ op, (cb op).instruction.bitNumber < 8 :=
  forall_byte (by decide)

namespace Board

variable {β : Type} (s : Board β)

/-- Changes the registers by a checked computation. -/
def mapRegsChecked (f : Registers → Checked Registers) : Checked (Board β) := do
  let regs ← f s.cpu.regs
  return { s with cpu := { s.cpu with regs := regs } }

/-- `Board.chargeIf` with the cycles added up in a double word. -/
def chargeIfChecked (taken : Bool) (n : Nat) : Checked (Board β) :=
  if taken then do
    let total ← Checked.sum 32 s.cpu.extraCycles n
    return { s with cpu := { s.cpu with extraCycles := total } }
  else return s

theorem mapRegsChecked_eq {f : Registers → Checked Registers} {g : Registers → Registers}
    (h : ∀ r, f r = .ok (g r)) : s.mapRegsChecked f = .ok (s.mapRegs g) := by
  rw [mapRegsChecked, h]
  rfl

theorem chargeIfChecked_eq (taken : Bool) {n : Nat} (h : s.cpu.extraCycles + n < 2 ^ 32) :
    s.chargeIfChecked taken n = .ok (s.chargeIf taken n) := by
  cases taken with
  | false => rfl
  | true =>
    rw [chargeIfChecked, if_pos rfl, Checked.sum_eq h]
    rfl

variable [Bus β]

/-- `Board.execute`, with a checked computation for each instruction whose arithmetic may leave its
type. -/
def executeChecked (i : Instruction) : Checked (Board β) :=
  match i with
  | .loadHlSp =>
    s.skip.mapRegsChecked fun r => do
      return (← r.spOffsetFlagsChecked s.nextByte).setHl (r.spOffset s.nextByte)
  | .addHl p => s.mapRegsChecked fun r => r.addHlChecked (r.pair p)
  | .addSp =>
    s.skip.mapRegsChecked fun r => do
      return { ← r.spOffsetFlagsChecked s.nextByte with sp := r.spOffset s.nextByte }
  | .alu op src => s.mapRegsChecked (·.aluChecked op (s.operand src))
  | .aluImm op => s.skip.mapRegsChecked (·.aluChecked op s.nextByte)
  | .jrIf cc =>
    let taken := s.cpu.regs.holds cc
    (s.jumpRelative taken).chargeIfChecked taken takenCost.jr
  | .jpIf cc =>
    let taken := s.cpu.regs.holds cc
    (s.jumpAbsolute taken).chargeIfChecked taken takenCost.jp
  | .callIf cc =>
    let taken := s.cpu.regs.holds cc
    (s.callIf taken).chargeIfChecked taken takenCost.call
  | .retIf cc =>
    let taken := s.cpu.regs.holds cc
    (s.returnIf taken).chargeIfChecked taken takenCost.ret
  | .bit k x => s.mapRegsChecked (·.bitFlagsChecked k (s.operand x))
  | .res k x => do
    let mask ← bitMaskChecked k
    return s.update x (fun _ v => v &&& ~~~mask) (fun r _ => r)
  | .set k x => do
    let mask ← bitMaskChecked k
    return s.update x (fun _ v => v ||| mask) (fun r _ => r)
  | i => return s.execute i

variable {s} in
/-- An instruction that starts with no cycles charged and names a bit of a byte, if it names one,
stays within its types. -/
theorem executeChecked_eq (hextra : s.cpu.extraCycles = 0) {i : Instruction}
    (hbit : i.bitNumber < 8) : s.executeChecked i = .ok (s.execute i) := by
  have hcharge {t : Board β} (ht : t.ledger = s.ledger) (taken : Bool) {n : Nat}
      (hn : n ≤ maxStepCycles) : t.chargeIfChecked taken n = .ok (t.chargeIf taken n) := by
    have hzero : t.cpu.extraCycles = 0 := (congrArg Prod.fst ht).trans hextra
    refine t.chargeIfChecked_eq taken ?_
    rw [hzero, Nat.zero_add]
    exact Nat.lt_of_le_of_lt hn (by decide)
  cases i with
  | loadHlSp =>
    rw [executeChecked, execute]
    refine mapRegsChecked_eq _ fun r => ?_
    rw [r.spOffsetFlagsChecked_eq]
    rfl
  | addSp =>
    rw [executeChecked, execute]
    refine mapRegsChecked_eq _ fun r => ?_
    rw [r.spOffsetFlagsChecked_eq]
    rfl
  | addHl p =>
    rw [executeChecked, execute]
    exact mapRegsChecked_eq s fun r => r.addHlChecked_eq (r.pair p)
  | alu op src =>
    rw [executeChecked, execute]
    exact mapRegsChecked_eq s fun r => r.aluChecked_eq op (s.operand src)
  | aluImm op =>
    rw [executeChecked, execute]
    exact mapRegsChecked_eq s.skip fun r => r.aluChecked_eq op s.nextByte
  | jrIf cc =>
    rw [executeChecked, execute]
    exact hcharge (s.ledger_jumpRelative _) _ (by decide)
  | jpIf cc =>
    rw [executeChecked, execute]
    exact hcharge (s.ledger_jumpAbsolute _) _ (by decide)
  | callIf cc =>
    rw [executeChecked, execute]
    exact hcharge (s.ledger_callIf _) _ (by decide)
  | retIf cc =>
    rw [executeChecked, execute]
    exact hcharge (s.ledger_returnIf _) _ (by decide)
  | bit k x =>
    rw [executeChecked, execute]
    exact mapRegsChecked_eq s fun r => r.bitFlagsChecked_eq hbit (s.operand x)
  | res | set => exact bind_bitMaskChecked hbit _
  | _ => rfl

/-! ### Steps -/

/-- `Board.decoded` with the costs of the two opcodes added up in a double word. -/
def decodedChecked : Checked (Entry × Board β) := do
  let first ← Checked.entry Decode.primary s.nextByte
  let s := s.skip
  match first.instruction with
  | .prefixCb =>
    let second ← Checked.entry Decode.cb s.nextByte
    let cycles ← Checked.sum 32 first.cycles second.cycles
    return (⟨cycles, second.instruction⟩, s.skip)
  | _ => return (first, s)

/-- `Board.executeNext` with a checked decoder, instruction and sum of the cycles. -/
def executeNextChecked : Checked (Stepped β) := do
  let (entry, s) ← s.begin.decodedChecked
  let s ← s.executeChecked entry.instruction
  let cpu := s.cpu
  let cycles ← Checked.sum 32 entry.cycles cpu.extraCycles
  return {
    cycles
    board := { s with cpu := { cpu with extraCycles := 0 }.advanceSchedule }
    executed := some entry.instruction }

/-- `Board.step` with a checked instruction. -/
def stepChecked : Checked (Stepped β) :=
  let s := s.uncharge
  if s.cpu.halted then return ⟨idleCycles, s, none⟩
  else if s.cpu.stopped then return ⟨idleCycles, s.watchJoypad, none⟩
  else s.executeNextChecked

theorem decodedChecked_eq : s.decodedChecked = .ok s.decoded := by
  have hcost := s.cost_decoded_le
  rw [decodedChecked, Checked.entry_eq, Checked.ok_bind]
  unfold decoded at hcost ⊢
  generalize Decode.primary s.nextByte = first at hcost ⊢
  obtain ⟨cycles, i⟩ := first
  cases i with
  | prefixCb =>
    have hsum : cycles + (Decode.cb s.skip.nextByte).cycles ≤ 24 :=
      Nat.le_trans (Nat.le_add_right _ _) hcost
    dsimp only
    rw [Checked.entry_eq, Checked.ok_bind, Checked.sum_eq (by omega)]
    rfl
  | _ => rfl

theorem bitNumber_decoded_lt : s.decoded.1.instruction.bitNumber < 8 := by
  rw [decoded_fst, Decode.entry]
  split
  · exact Decode.bitNumber_cb_lt _
  · exact Decode.bitNumber_primary_lt _

variable {s} in
theorem executeNextChecked_eq (h : s.cpu.extraCycles = 0) :
    s.executeNextChecked = .ok s.executeNext := by
  have hledger : s.begin.decoded.2.ledger = s.ledger := ledger_decoded _
  have hextra : s.begin.decoded.2.cpu.extraCycles = 0 := (congrArg Prod.fst hledger).trans h
  have hexecuted := congrArg Prod.fst (ledger_execute s.begin.decoded.2
    s.begin.decoded.1.instruction)
  have hsurcharge := surcharge_le s.begin.decoded.2 s.begin.decoded.1.instruction
  have hcost : s.begin.decoded.1.cycles + s.begin.decoded.1.instruction.branchCost ≤ 24 :=
    cost_decoded_le _
  have hcycles : s.begin.decoded.1.cycles +
      (s.begin.decoded.2.execute s.begin.decoded.1.instruction).cpu.extraCycles < 2 ^ 32 := by
    simp only [ledger] at hexecuted
    omega
  rw [executeNextChecked, decodedChecked_eq, Checked.ok_bind]
  dsimp only
  rw [executeChecked_eq hextra (bitNumber_decoded_lt _), Checked.ok_bind, Checked.sum_eq hcycles]
  rfl

/-- A step stays within its types. -/
theorem stepChecked_eq : s.stepChecked = .ok s.step := by
  have hhalted : s.uncharge.cpu.halted = s.cpu.halted := rfl
  have hstopped : s.uncharge.cpu.stopped = s.cpu.stopped := rfl
  rw [stepChecked, hhalted, hstopped]
  rcases Bool.eq_false_or_eq_true s.cpu.halted with h | h
  · rw [step_of_halted h, if_pos h, Checked.pure_eq]
  rw [if_neg (Bool.eq_false_iff.1 h)]
  rcases Bool.eq_false_or_eq_true s.cpu.stopped with h' | h'
  · rw [step_of_stopped h h', if_pos h', Checked.pure_eq]
  · rw [step_of_awake h h', if_neg (Bool.eq_false_iff.1 h'),
      executeNextChecked_eq (s := s.uncharge) rfl]

end Board

/-! ### Interrupts -/

/-- The number of clear bits below the lowest set one; eight if no bit is set. -/
def trailingZeros (b : UInt8) : Nat :=
  (List.range 8).findIdx (hasBit b)

/-- `Interrupts.highest?` from the position of the lowest bit. -/
def Interrupts.highestChecked (i : Interrupts) : Checked (Option InterruptSource) :=
  if i.isEmpty then return none
  else do
    let mask ← Checked.bit 8 (trailingZeros i.bits)
    return InterruptSource.all.find? (·.mask == UInt8.ofNat mask)

/-- `InterruptSource.vector` computed in a word: eight bytes for each source. -/
def InterruptSource.vectorChecked (source : InterruptSource) : Checked UInt16 := do
  let offset ← Checked.product 16 (trailingZeros source.mask) 8
  let vector ← Checked.sum 16 0x40 offset
  return .ofNat vector

/-- A byte with a set bit has one among its eight, and the lowest is that of the most urgent
source, if it is that of a source at all. -/
theorem Interrupts.find?_trailingZeros :
    ∀ b : UInt8, b ≠ 0 → trailingZeros b < 8 ∧
      InterruptSource.all.find? (·.mask == UInt8.ofNat (2 ^ trailingZeros b)) = highest? ⟨b⟩ :=
  forall_byte (by decide)

theorem Interrupts.highestChecked_eq (i : Interrupts) : i.highestChecked = .ok i.highest? := by
  obtain ⟨b⟩ := i
  by_cases h : b = 0
  · rw [h]
    rfl
  · obtain ⟨hlt, hfind⟩ := find?_trailingZeros b h
    have hempty : ¬isEmpty ⟨b⟩ = true := fun hb => h (beq_iff_eq.1 hb)
    rw [highestChecked, if_neg hempty, Checked.bit_eq hlt, Checked.ok_bind, hfind,
      Checked.pure_eq]

theorem InterruptSource.vectorChecked_eq (source : InterruptSource) :
    source.vectorChecked = .ok source.vector := by
  cases source <;> rfl

namespace Board

variable {β : Type} [Bus β] (s : Board β)

/-- `Board.dispatch` with a checked selection and vector. -/
def dispatchChecked : Checked (Board β) := do
  let pc := s.cpu.regs.pc
  let sp := s.cpu.regs.sp
  let cpu := { s.cpu with
    ime := false
    schedule := .idle
    halted := false
    regs := { s.cpu.regs with sp := sp - 2 } }
  let bus := write s.bus (sp - 1) (hiByte pc)
  let requests := read bus requestAddress
  let selected ← (pendingInterrupts bus).highestChecked
  let bus := write bus (sp - 2) (loByte pc)
  match selected with
  | some source =>
    let vector ← source.vectorChecked
    let bus := note (.sm83Interrupt source vector pc (sp - 2)) bus
    return {
      cpu := { cpu with regs := { cpu.regs with pc := vector } }
      bus := write bus requestAddress (requests &&& ~~~source.mask) }
  | none => return { cpu := { cpu with regs := { cpu.regs with pc := 0 } }, bus }

/-- `Board.handleInterrupts` with a checked dispatch. -/
def handleInterruptsChecked : Checked (Option Nat × Board β) :=
  match s.wake with
  | (true, s) => do
    let s ← s.dispatchChecked
    return (some dispatchCycles, s)
  | (false, s) => return (none, s)

theorem dispatchChecked_eq : s.dispatchChecked = .ok s.dispatch := by
  rw [dispatchChecked, Interrupts.highestChecked_eq]
  unfold dispatch selection?
  dsimp only
  rw [Checked.ok_bind]
  cases (pendingInterrupts (write s.bus (s.cpu.regs.sp - 1) (hiByte s.cpu.regs.pc))).highest? with
  | none => rfl
  | some source =>
    dsimp only
    rw [InterruptSource.vectorChecked_eq]
    rfl

/-- The interrupt logic stays within its types. -/
theorem handleInterruptsChecked_eq : s.handleInterruptsChecked = .ok s.handleInterrupts := by
  rw [handleInterruptsChecked, handleInterrupts]
  obtain ⟨begins, t⟩ := s.wake
  cases begins with
  | false => rfl
  | true =>
    dsimp only
    rw [t.dispatchChecked_eq]
    rfl

end Board

end EightBit.Sm83
