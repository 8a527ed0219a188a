import EightBit.Proofs.Records
import EightBit.Proofs.Sm83.Control

/-!
# Surroundings that a processor cannot tell apart

A processor knows its surroundings by what it reads there and by which interrupts are pending, and
changes them by writes and notices. A map between two kinds of surroundings that respects these four
carries every step, and every interrupt, over from the one to the other: the processor itself does
the same in both. Nor does it look at the record of the bytes that it fetches, to which it only
appends.

## Main definitions

* `Bus.Hom`, `Board.map`: a map that respects what a processor does with its surroundings, and the
  same processor in the surroundings that the map leads to.
* `Board.Hom`, `Board.transfer`: the same together with a map of records.
* `Board.Alike`: boards that differ at most in what stands in the buffer behind the record.

## Main results

* `Board.Hom.execute`, `Board.Hom.step`, `Board.Hom.handleInterrupts`: instructions, steps and the
  interrupt logic commute with such maps.
* `Board.Alike.step`, `Board.Alike.handleInterrupts`: boards stay alike.
-/

namespace EightBit.Sm83

variable {β γ : Type}

/-- The same processor in the surroundings that `φ` leads to. -/
def Board.map (φ : β → γ) (s : Board β) : Board γ where
  cpu := s.cpu
  bus := φ s.bus

/-- The outcome of a step in the surroundings that `φ` leads to. -/
def Stepped.map (φ : β → γ) (r : Stepped β) : Stepped γ where
  cycles := r.cycles
  board := r.board.map φ
  executed := r.executed

namespace Board

variable (φ : β → γ) (ρ : InstructionBytes → InstructionBytes) (s : Board β)

/-- The processor in the surroundings that `φ` leads to, with the record that `ρ` leads to. -/
def transfer : Board γ where
  cpu := { s.cpu with fetched := ρ s.cpu.fetched }
  bus := φ s.bus

@[simp] theorem regs_transfer : (s.transfer φ ρ).cpu.regs = s.cpu.regs := rfl

@[simp] theorem bus_transfer : (s.transfer φ ρ).bus = φ s.bus := rfl

/-! ### Moves that stay inside the processor -/

@[simp] theorem transfer_mapRegs (f : Registers → Registers) :
    (s.transfer φ ρ).mapRegs f = (s.mapRegs f).transfer φ ρ := rfl

@[simp] theorem transfer_jumpTo (pc : UInt16) :
    (s.transfer φ ρ).jumpTo pc = (s.jumpTo pc).transfer φ ρ := rfl

@[simp] theorem transfer_drop : (s.transfer φ ρ).drop = s.drop.transfer φ ρ := rfl

@[simp] theorem transfer_disableInterrupts :
    (s.transfer φ ρ).disableInterrupts = s.disableInterrupts.transfer φ ρ := rfl

@[simp] theorem transfer_enableInterrupts :
    (s.transfer φ ρ).enableInterrupts = s.enableInterrupts.transfer φ ρ := rfl

@[simp] theorem transfer_chargeIf (taken : Bool) (n : Nat) :
    (s.transfer φ ρ).chargeIf taken n = (s.chargeIf taken n).transfer φ ρ := by
  cases taken <;> rfl

@[simp] theorem transfer_scheduleEnable :
    (s.transfer φ ρ).scheduleEnable = s.scheduleEnable.transfer φ ρ := by
  rw [scheduleEnable, scheduleEnable, apply_ite (Board.transfer φ ρ)]
  rfl

end Board

variable [Bus β] [Bus γ]

/-- A map between surroundings that respects what a processor reads there and does to them. -/
structure Bus.Hom (φ : β → γ) : Prop where
  read (bus : β) (a : UInt16) : read (φ bus) a = read bus a
  write (bus : β) (a : UInt16) (v : UInt8) : write (φ bus) a v = φ (write bus a v)
  note (n : Notice) (bus : β) : note n (φ bus) = φ (note n bus)
  pendingInterrupts (bus : β) : pendingInterrupts (φ bus) = pendingInterrupts bus

theorem Bus.hom_id : Bus.Hom (id : β → β) :=
  ⟨fun _ _ => rfl, fun _ _ _ => rfl, fun _ _ => rfl, fun _ => rfl⟩

/-- Such a map, with a map between records that respects what is appended to them. -/
structure Board.Hom (φ : β → γ) (ρ : InstructionBytes → InstructionBytes) : Prop
    extends Bus.Hom φ where
  append (bs : InstructionBytes) (b : UInt8) : ρ (bs.push b) = (ρ bs).push b

namespace Board.Hom

variable {φ : β → γ} {ρ : InstructionBytes → InstructionBytes} (h : Board.Hom φ ρ) (s : Board β)

include h

/-! ### Moves that read or write -/

@[simp] theorem load (a : UInt16) : (s.transfer φ ρ).load a = s.load a := h.read _ _

@[simp] theorem store (a : UInt16) (v : UInt8) :
    (s.transfer φ ρ).store a v = (s.store a v).transfer φ ρ :=
  congrArg (Board.mk (s.transfer φ ρ).cpu) (h.write _ _ _)

@[simp] theorem nextByte : (s.transfer φ ρ).nextByte = s.nextByte := h.load s _

@[simp] theorem skip : (s.transfer φ ρ).skip = s.skip.transfer φ ρ := by
  unfold Board.skip
  rw [h.nextByte]
  dsimp only [Board.transfer]
  rw [← h.append]
  split <;> rfl

@[simp] theorem nextWord : (s.transfer φ ρ).nextWord = s.nextWord := by
  rw [Board.nextWord, h.skip, h.nextByte, h.nextByte, Board.nextWord]

@[simp] theorem skipWord : (s.transfer φ ρ).skipWord = s.skipWord.transfer φ ρ := by
  rw [Board.skipWord, h.skip, h.skip, Board.skipWord]

@[simp] theorem writeWord (bus : β) (a w : UInt16) :
    EightBit.writeWord (φ bus) a w = φ (EightBit.writeWord bus a w) := by
  rw [EightBit.writeWord, h.write, h.write, EightBit.writeWord]

@[simp] theorem push (w : UInt16) : (s.transfer φ ρ).push w = (s.push w).transfer φ ρ := by
  rw [Board.push, Board.bus_transfer, pushWord, h.write, h.write]
  rfl

@[simp] theorem stackTop : (s.transfer φ ρ).stackTop = s.stackTop := by
  rw [Board.stackTop, Board.bus_transfer, readWord, h.read, h.read]
  rfl

@[simp] theorem operand (x : Reg8) : (s.transfer φ ρ).operand x = s.operand x := by
  cases x with
  | atHl => exact h.load s _
  | _ => rfl

@[simp] theorem setOperand (x : Reg8) (v : UInt8) :
    (s.transfer φ ρ).setOperand x v = (s.setOperand x v).transfer φ ρ := by
  cases x with
  | atHl => exact h.store s _ v
  | _ => rfl

@[simp] theorem update (x : Reg8) (f : Registers → UInt8 → UInt8)
    (g : Registers → UInt8 → Registers) :
    (s.transfer φ ρ).update x f g = (s.update x f g).transfer φ ρ := by
  rw [Board.update, h.operand, Board.transfer_mapRegs, h.setOperand, Board.regs_transfer,
    Board.update]

/-! ### Branches and the control of the processor -/

@[simp] theorem jumpRelative (taken : Bool) :
    (s.transfer φ ρ).jumpRelative taken = (s.jumpRelative taken).transfer φ ρ := by
  rw [Board.jumpRelative, h.nextByte, h.skip]
  cases taken <;> rfl

@[simp] theorem jumpAbsolute (taken : Bool) :
    (s.transfer φ ρ).jumpAbsolute taken = (s.jumpAbsolute taken).transfer φ ρ := by
  rw [Board.jumpAbsolute, h.nextWord, h.skipWord]
  cases taken <;> rfl

@[simp] theorem callIf (taken : Bool) :
    (s.transfer φ ρ).callIf taken = (s.callIf taken).transfer φ ρ := by
  rw [Board.callIf, h.nextWord, h.skipWord]
  cases taken with
  | false => rfl
  | true => exact congrArg (Board.jumpTo · s.nextWord) (h.push s.skipWord _)

@[simp] theorem returnIf (taken : Bool) :
    (s.transfer φ ρ).returnIf taken = (s.returnIf taken).transfer φ ρ := by
  rw [Board.returnIf, h.stackTop]
  cases taken <;> rfl

@[simp] theorem halt : (s.transfer φ ρ).halt = s.halt.transfer φ ρ := by
  rw [Board.halt, Board.bus_transfer, h.pendingInterrupts, Board.halt,
    apply_ite (Board.transfer φ ρ)]
  rfl

@[simp] theorem stop : (s.transfer φ ρ).stop = s.stop.transfer φ ρ := by
  rw [Board.stop, h.skip]
  rfl

@[simp] theorem ignoreInvalid (opcode : UInt8) :
    (s.transfer φ ρ).ignoreInvalid opcode = (s.ignoreInvalid opcode).transfer φ ρ := by
  rw [Board.ignoreInvalid, Board.bus_transfer, h.note]
  rfl

/-! ### Instructions, steps and interrupts -/

/-- An instruction does the same to the processor, and the same to the surroundings up to `φ`. -/
theorem execute (i : Instruction) :
    (s.transfer φ ρ).execute i = (s.execute i).transfer φ ρ := by
  cases i with
  | storeSp =>
    rw [Board.execute, h.nextWord, h.skipWord, Board.bus_transfer, h.writeWord]
    rfl
  | _ => simp [Board.execute, h]

theorem decoded : (s.transfer φ ρ).decoded = (s.decoded.1, s.decoded.2.transfer φ ρ) := by
  unfold Board.decoded
  rw [h.nextByte, h.skip]
  dsimp only
  rw [h.nextByte, h.skip]
  split <;> rfl

/-- The record is cleared first, so that `ρ` has to respect this as well. -/
theorem executeNext (hclear : ρ s.cpu.fetched.clear = (ρ s.cpu.fetched).clear) :
    (s.transfer φ ρ).executeNext =
      { s.executeNext with board := s.executeNext.board.transfer φ ρ } := by
  have hbegin : (s.transfer φ ρ).begin = s.begin.transfer φ ρ := by
    simp only [Board.begin, Board.transfer, hclear]
  rw [Board.executeNext, hbegin, h.decoded]
  dsimp only
  rw [h.execute]
  cases hschedule : (s.begin.decoded.2.execute s.begin.decoded.1.instruction).cpu.schedule <;>
    simp only [Board.executeNext, Board.transfer, Cpu.advanceSchedule, hschedule]

theorem watchJoypad : (s.transfer φ ρ).watchJoypad = s.watchJoypad.transfer φ ρ := by
  rw [Board.watchJoypad, h.load, Board.watchJoypad, apply_ite (Board.transfer φ ρ)]
  rfl

/-- A step takes as long and executes the same. -/
theorem step (hclear : ρ s.cpu.fetched.clear = (ρ s.cpu.fetched).clear) :
    (s.transfer φ ρ).step = { s.step with board := s.step.board.transfer φ ρ } := by
  rcases Bool.eq_false_or_eq_true s.cpu.halted with hh | hh
  · rw [Board.step_of_halted hh, Board.step_of_halted (s := s.transfer φ ρ) hh]
    rfl
  rcases Bool.eq_false_or_eq_true s.cpu.stopped with hs | hs
  · rw [Board.step_of_stopped hh hs, Board.step_of_stopped (s := s.transfer φ ρ) hh hs]
    exact congrArg (Stepped.mk idleCycles · none) (h.watchJoypad s.uncharge)
  · rw [Board.step_of_awake hh hs, Board.step_of_awake (s := s.transfer φ ρ) hh hs]
    exact h.executeNext s.uncharge hclear

theorem selection? (bus : β) : Board.selection? (φ bus) = Board.selection? bus := by
  rw [Board.selection?, h.pendingInterrupts, h.read, Board.selection?]

theorem dispatch : (s.transfer φ ρ).dispatch = s.dispatch.transfer φ ρ := by
  have hupper : (s.transfer φ ρ).upperPushed = φ s.upperPushed := h.write _ _ _
  have hlower : (s.transfer φ ρ).lowerPushed = φ s.lowerPushed := by
    rw [Board.lowerPushed, hupper]
    exact h.write _ _ _
  cases hselected : Board.selection? s.upperPushed with
  | none =>
    have hsame : Board.selection? (s.transfer φ ρ).upperPushed = none := by
      rw [hupper, h.selection?, hselected]
    rw [Board.dispatch_of_selection?_none hselected, Board.dispatch_of_selection?_none hsame,
      hlower]
    rfl
  | some selected =>
    have hsame : Board.selection? (s.transfer φ ρ).upperPushed = some selected := by
      rw [hupper, h.selection?, hselected]
    rw [Board.dispatch_of_selection?_some hselected, Board.dispatch_of_selection?_some hsame,
      hlower, h.note, h.write]
    rfl

theorem hears : (s.transfer φ ρ).hears = s.hears :=
  congrArg (Control.hears s.cpu.control) (h.pendingInterrupts s.bus)

theorem accepts : (s.transfer φ ρ).accepts = s.accepts := by
  rw [Board.accepts, h.hears, Board.accepts]
  rfl

/-- The interrupt logic comes to the same decision. -/
theorem handleInterrupts :
    (s.transfer φ ρ).handleInterrupts =
      (s.handleInterrupts.1, s.handleInterrupts.2.transfer φ ρ) := by
  rcases Bool.eq_false_or_eq_true s.accepts with ha | ha
  · rw [Board.handleInterrupts_of_accepts ha,
      Board.handleInterrupts_of_accepts ((h.accepts s).trans ha)]
    exact congrArg (Prod.mk _) (h.dispatch { s with cpu := { s.cpu with stopped := false } })
  · rw [Board.handleInterrupts_of_not_accepts ha,
      Board.handleInterrupts_of_not_accepts ((h.accepts s).trans ha), h.hears]
    dsimp only
    rw [apply_ite (Board.transfer φ ρ)]
    rfl

end Board.Hom

/-! ### Other surroundings -/

namespace Bus.Hom

variable {φ : β → γ} (h : Bus.Hom φ) (s : Board β)

include h

/-- A processor does not notice that its surroundings are others. -/
theorem board : Board.Hom φ id := ⟨h, fun _ _ => rfl⟩

theorem step : (s.map φ).step = s.step.map φ := h.board.step s rfl

theorem handleInterrupts :
    (s.map φ).handleInterrupts = (s.handleInterrupts.1, s.handleInterrupts.2.map φ) :=
  h.board.handleInterrupts s

end Bus.Hom

/-! ### Other buffers -/

/-- Boards whose processors are alike, in the same surroundings. -/
structure Board.Alike {β : Type} (s t : Board β) : Prop where
  cpu : Recording.Alike s.cpu t.cpu
  bus : t.bus = s.bus

theorem Cpu.alike_reset {c d : Cpu} (h : Recording.Alike c d) :
    Recording.Alike c.reset d.reset := by
  rw [h.rest]
  exact ⟨rfl, rfl⟩

theorem Cpu.shown_traceEntry {c d : Cpu} (h : Recording.Alike c d) (i : Instruction) :
    (d.traceEntry i).shown = (c.traceEntry i).shown := by
  have hbytes : d.fetched.toList = c.fetched.toList := h.bytes
  have haddress : d.instructionAddress = c.instructionAddress := by rw [h.rest]; rfl
  rw [traceEntry, traceEntry, TraceEntry.shown, TraceEntry.shown, haddress, hbytes]

namespace Board

omit [Bus β] in
theorem alike_inBuffer (s : Board β) (buffer : Vector UInt8 maxInstructionBytes) :
    s.Alike (s.transfer id (·.inBuffer buffer)) :=
  ⟨.setRecord s.cpu (s.cpu.fetched.toList_inBuffer buffer), rfl⟩

/-- A processor does not notice that its buffer is another one. -/
theorem hom_inBuffer (buffer : Vector UInt8 maxInstructionBytes) :
    Board.Hom (id : β → β) (·.inBuffer buffer) :=
  ⟨Bus.hom_id, fun bs b => bs.inBuffer_push buffer b⟩

namespace Alike

variable {s t : Board β} (h : s.Alike t)

include h

omit [Bus β] in
theorem eq_transfer : t = s.transfer id (·.inBuffer t.cpu.fetched.buffer) :=
  congr (congrArg Board.mk h.cpu.eq_inBuffer) h.bus

/-- A step of boards that are alike takes as long and executes the same, and leaves them alike. -/
theorem step :
    t.step.cycles = s.step.cycles ∧ t.step.executed = s.step.executed ∧
      s.step.board.Alike t.step.board := by
  obtain ⟨buffer, hbuffer⟩ : ∃ buffer, buffer = t.cpu.fetched.buffer := ⟨_, rfl⟩
  have ht := h.eq_transfer
  rw [← hbuffer] at ht
  have hclear : s.cpu.fetched.clear.inBuffer buffer = (s.cpu.fetched.inBuffer buffer).clear := by
    have hbytes : t.cpu.fetched.clear.toList = s.cpu.fetched.clear.toList := rfl
    have hfetched : t.cpu.fetched = s.cpu.fetched.inBuffer buffer := congrArg (·.cpu.fetched) ht
    rw [← hfetched, hbuffer]
    exact InstructionBytes.inBuffer_eq hbytes
  rw [ht, (hom_inBuffer buffer).step s hclear]
  exact ⟨rfl, rfl, alike_inBuffer _ buffer⟩

/-- They come to the same decision about interrupts, and stay alike. -/
theorem handleInterrupts :
    t.handleInterrupts.1 = s.handleInterrupts.1 ∧
      s.handleInterrupts.2.Alike t.handleInterrupts.2 := by
  rw [h.eq_transfer, (hom_inBuffer _).handleInterrupts s]
  exact ⟨rfl, alike_inBuffer _ _⟩

end Alike

end Board

end EightBit.Sm83
