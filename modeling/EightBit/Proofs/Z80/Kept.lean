import EightBit.Proofs.Z80.Length

/-!
# What an instruction leaves alone

An instruction reaches its surroundings through writes, ports and notices only. What none of these
changes is the same after the instruction, and so is the address at which the processor says that
the instruction started. Whether the processor is halted changes with `HALT` alone. This module goes
through the instructions once for all three.

## Main definitions

* `Bus.Steady`: a quantity of the surroundings that no access changes.
* `Board.kept`: what an instruction leaves alone.

## Main results

* `Board.kept_execute`: instruction by instruction.
* `Board.steady_step`: what no access changes, no step changes.
* `Board.instructionAddress_step`, `Board.halted_step_iff`: what the processor notes of a step.
-/

namespace EightBit.Z80

/-- No access of the processor changes `f`. -/
structure Bus.Steady {β γ : Type} [Bus β] (f : β → γ) : Prop where
  write : ∀ bus a b, f (write bus a b) = f bus
  note : ∀ n bus, f (note n bus) = f bus
  portIn : ∀ bus a, f (portIn bus a).2 = f bus
  portOut : ∀ bus a b, f (portOut bus a b) = f bus

theorem Bus.steady_unit {β : Type} [Bus β] : Bus.Steady fun _ : β => () :=
  ⟨fun _ _ _ => rfl, fun _ _ => rfl, fun _ _ => rfl, fun _ _ _ => rfl⟩

namespace Board

section

variable {β γ : Type}

/-- What an instruction leaves alone: the address at which it started, whether the processor is
halted, and what no access changes. -/
def kept (f : β → γ) (s : Board β) : UInt16 × Bool × γ :=
  (s.cpu.instructionAddress, s.cpu.halted, f s.bus)

variable (f : β → γ) (s : Board β)

/-! ### Moves that stay inside the processor -/

@[simp] theorem kept_mapRegs (g : Registers → Registers) : (s.mapRegs g).kept f = s.kept f := rfl

@[simp] theorem kept_chargeIf (taken : Bool) (n : Nat) :
    (s.chargeIf taken n).kept f = s.kept f := by
  cases taken <;> rfl

variable {f} in
theorem kept_setBus {bus : β} (hbus : f bus = f s.bus) :
    { s with bus := bus }.kept f = s.kept f := by
  rw [kept, kept, hbus]

theorem kept_of_fetchedFrom {s t : Board β} (h : t.FetchedFrom s) : t.kept f = s.kept f := by
  obtain ⟨pc, r, bytes, m, a, rfl⟩ := h
  rfl

variable [Bus β]

@[simp] theorem kept_aim (x : Reg8) : (s.aim x).kept f = s.kept f := by
  rw [aim]
  split <;> rfl

@[simp] theorem kept_jumpRelative (taken : Bool) : (s.jumpRelative taken).kept f = s.kept f := by
  cases taken <;> rfl

@[simp] theorem kept_jumpAbsolute (taken : Bool) : (s.jumpAbsolute taken).kept f = s.kept f := by
  cases taken <;> rfl

@[simp] theorem kept_returnIf (taken : Bool) : (s.returnIf taken).kept f = s.kept f := by
  cases taken <;> rfl

end

/-! ### Moves that reach the surroundings -/

section

variable {β γ : Type} [Bus β] {f : β → γ} (h : Bus.Steady f) (s : Board β)

include h

theorem kept_store (a : UInt16) (b : UInt8) : (s.store a b).kept f = s.kept f :=
  s.kept_setBus (h.write _ a b)

theorem kept_push (w : UInt16) : (s.push w).kept f = s.kept f :=
  (s.mapRegs _).kept_setBus ((h.write _ _ _).trans (h.write _ _ _))

theorem kept_writeWord (a w : UInt16) :
    { s with bus := writeWord s.bus a w }.kept f = s.kept f :=
  s.kept_setBus ((h.write _ _ _).trans (h.write _ _ _))

theorem kept_setOperandIn (m : IndexMode) (x : Reg8) (v : UInt8) :
    (s.setOperandIn m x v).kept f = s.kept f := by
  cases x with
  | atHl => exact s.kept_store h _ v
  | _ => rfl

theorem kept_callIf (taken : Bool) : (s.callIf taken).kept f = s.kept f := by
  cases taken with
  | false => rfl
  | true => exact s.skipWord.kept_push h _

theorem kept_update (x : Reg8) (g : Registers → UInt8 → UInt8)
    (k : Registers → UInt8 → Registers) : (s.update x g k).kept f = s.kept f :=
  (kept_setOperandIn h _ _ x _).trans (s.kept_aim f x)

theorem kept_updateIndexed (copy : Option Reg8) (g : Registers → UInt8 → UInt8)
    (k : Registers → UInt8 → Registers) : (s.updateIndexed copy g k).kept f = s.kept f := by
  have hstore : ((s.mapRegs (k · (s.load s.pointer))).store s.pointer
      (g s.cpu.regs (s.load s.pointer))).kept f = s.kept f := kept_store h _ _ _
  cases copy with
  | none => exact hstore
  | some x => exact (kept_setOperandIn h _ _ x _).trans hstore

theorem kept_inputA : s.inputA.kept f = s.kept f :=
  s.skip.kept_setBus (h.portIn _ _)

theorem kept_outputA : s.outputA.kept f = s.kept f :=
  s.skip.kept_setBus (h.portOut _ _ _)

theorem kept_inputByC (dst : Option Reg8) : (s.inputByC dst).kept f = s.kept f := by
  have hport : { s with bus := (portIn s.bus s.cpu.regs.bc).2 }.kept f = s.kept f :=
    s.kept_setBus (h.portIn _ _)
  cases dst with
  | none => exact hport
  | some x => exact (kept_setOperandIn h _ _ x _).trans hport

theorem kept_outputByC (src : Option Reg8) : (s.outputByC src).kept f = s.kept f :=
  s.kept_setBus (h.portOut _ _ _)

theorem kept_ignoreInvalid (opcode : UInt8) : (s.ignoreInvalid opcode).kept f = s.kept f :=
  s.kept_setBus (h.note _ _)

theorem kept_block (op : BlockOp) (increment repeats : Bool) :
    (s.block op increment repeats).kept f = s.kept f := by
  -- The repeating form returns to its opcode, which only moves the program counter.
  have hrepeat (again : Bool) (t : Board β) (ht : t.kept f = s.kept f) :
      (if (repeats && again) = true then
        (t.jumpTo (t.cpu.regs.pc - 2)).charge repeatCost else t).kept f = s.kept f := by
    split <;> exact ht
  cases op with
  | load => exact hrepeat _ _ (s.kept_store h _ _)
  | compare => exact hrepeat _ _ rfl
  | input => exact hrepeat _ _ (s.kept_setBus ((h.write _ _ _).trans (h.portIn _ _)))
  | output => exact hrepeat _ _ (s.kept_setBus (h.portOut _ _ _))

/-! ### The instruction set -/

/-- An instruction other than `HALT` changes none of it. -/
theorem kept_execute {i : Instruction} (hi : i ≠ .halt) : (s.execute i).kept f = s.kept f := by
  cases i with
  | halt => exact absurd rfl hi
  -- Operands that may be in memory
  | load dst src =>
    have haims := ((s.aim dst).kept_aim f src).trans (s.kept_aim f dst)
    exact (kept_setOperandIn h _ _ dst _).trans haims
  | loadImm x => exact (kept_setOperandIn h _ _ x _).trans (s.kept_aim f x)
  | inc8 x | dec8 x | shift _ x | res _ x | set _ x => exact s.kept_update h x _ _
  | alu _ x | bit _ x => exact s.kept_aim f x
  | indexShift _ copy | indexRes _ copy | indexSet _ copy => exact s.kept_updateIndexed h copy _ _
  -- Words and bytes stored
  | storeBc | storeDe => exact s.kept_store h _ _
  | storeAbs => exact s.skipWord.kept_store h _ _
  | storeHlAbs | storePairAbs _ => exact s.skipWord.kept_writeWord h _ _
  | exSpHl => exact s.kept_writeWord h _ _
  | rrd | rld => exact s.kept_store h _ _
  -- Transfers of control
  | djnz | jrIf _ | jpIf _ | retIf _ => simp [execute]
  | jr => exact s.kept_jumpRelative f true
  | jp => exact s.kept_jumpAbsolute f true
  | ret => exact s.kept_returnIf f true
  | call => exact s.kept_callIf h true
  | callIf cc => exact (kept_chargeIf f _ _ _).trans (s.kept_callIf h _)
  | rst _ => exact s.kept_push h _
  | retn | reti => rfl
  | push _ => exact s.kept_push h _
  -- Devices
  | outImm => exact s.kept_outputA h
  | inImm => exact s.kept_inputA h
  | inC dst => exact s.kept_inputByC h dst
  | outC src => exact s.kept_outputByC h src
  | block op increment repeats => exact s.kept_block h op increment repeats
  | invalid opcode => exact s.kept_ignoreInvalid h opcode
  | _ => rfl

/-! ### Steps -/

/-- A step of a running processor notes where it began, and halts the processor if it finds
`HALT`. -/
theorem kept_step (hrun : s.cpu.halted = false) :
    s.step.board.kept f = (s.cpu.regs.pc, decide (s.found.instruction = .halt), f s.bus) := by
  have hfound : s.found.board.kept f = (s.cpu.regs.pc, false, f s.bus) := by
    rw [← hrun]
    exact kept_of_fetchedFrom f s.started.begin.fetchedFrom_decoded
  have hstep : s.step.board.kept f = (s.found.board.execute s.found.instruction).kept f := by
    rw [step_eq_execute hrun]
    rfl
  rw [hstep]
  by_cases hi : s.found.instruction = .halt
  · rw [hi, decide_eq_true rfl, execute, halt]
    exact congrArg (fun k => (k.1, true, k.2.2)) hfound
  · rw [kept_execute h _ hi, hfound, decide_eq_false hi]

/-- A step changes nothing that no access changes. -/
theorem steady_step : f s.step.board.bus = f s.bus := by
  cases hhalted : s.cpu.halted with
  | true => rw [step_of_halted hhalted, mapRegs, started]
  | false => exact congrArg (·.2.2) (s.kept_step h hhalted)

end

section

variable {β : Type} [Bus β] {s : Board β}

/-- The processor notes where the instruction that it executes began. -/
theorem instructionAddress_step (hrun : s.cpu.halted = false) :
    s.step.board.cpu.instructionAddress = s.cpu.regs.pc :=
  congrArg (·.1) (s.kept_step Bus.steady_unit hrun)

/-- A processor is halted after a step exactly if it was before or executed `HALT`. -/
theorem halted_step_iff :
    s.step.board.cpu.halted = true ↔
      s.cpu.halted = true ∨ ∃ m, s.step.executed = some (m, .halt) := by
  cases hhalted : s.cpu.halted with
  | true =>
    rw [step_of_halted hhalted]
    exact iff_of_true hhalted (.inl rfl)
  | false =>
    have hstep : s.step.board.cpu.halted = decide (s.found.instruction = .halt) :=
      congrArg (·.2.1) (s.kept_step Bus.steady_unit hhalted)
    rw [hstep, executed_of_running hhalted, decide_eq_true_iff]
    simp

/-- A step at a `HALT` without prefixes. -/
theorem step_of_haltOpcode (hrun : s.cpu.halted = false) (hop : s.nextByte = 0x76) :
    (∃ m, s.step.executed = some (m, .halt)) ∧
      s.step.board.cpu.regs = { s.cpu.regs with pc := s.cpu.regs.pc + 1 }.refresh := by
  obtain ⟨hexecuted, hboard⟩ := step_of_plain hrun hop (by decide)
  refine ⟨⟨_, hexecuted⟩, ?_⟩
  rw [hboard]
  rfl

end

end Board

end EightBit.Z80
