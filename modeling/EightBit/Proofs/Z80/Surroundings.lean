import EightBit.Proofs.Records
import EightBit.Proofs.Z80.Length

/-!
# Surroundings that a Z80 cannot tell apart

A Z80 knows its surroundings by what it reads and takes from devices there, and changes them by
writes, by what it gives to devices, and by notices. A map between two kinds of surroundings that
respects all of these carries every step over from the one to the other: the processor does the same
in both. Nor does it look at the record of the bytes that it fetches, to which it only appends.

## Main definitions

* `Bus.Hom`, `Board.map`: a map that respects what a processor does with its surroundings, and the
  same processor in the surroundings that the map leads to.
* `Board.Hom`, `Board.transfer`: the same together with a map of records.
* `Board.Alike`: boards that differ at most in what stands in the buffer behind the record.

## Main results

* `Board.Hom.execute`, `Board.Hom.decoded`: instructions and the decoder commute with such maps.
* `Bus.Hom.step`: so do steps.
* `Board.Alike.step_of_begin`: steps that begin alike.
-/

namespace EightBit.Z80

variable {β γ : Type}

/-- The same processor in the surroundings that `φ` leads to. -/
def Board.map (φ : β → γ) (s : Board β) : Board γ where
  cpu := s.cpu
  bus := φ s.bus

/-- The outcome of a step in the surroundings that `φ` leads to. -/
def Stepped.map (φ : β → γ) (r : Stepped β) : Stepped γ where
  cycles := r.cycles
  board := r.board.map φ
  executed := r.executed

/-- The processor in the surroundings that `φ` leads to, with the record that `ρ` leads to. -/
def Board.transfer (φ : β → γ) (ρ : InstructionBytes → InstructionBytes) (s : Board β) :
    Board γ where
  cpu := { s.cpu with fetched := ρ s.cpu.fetched }
  bus := φ s.bus

/-- What has been decoded, in these surroundings and with this record. -/
def Decoding.transfer (φ : β → γ) (ρ : InstructionBytes → InstructionBytes) (d : Decoding β) :
    Decoding γ where
  cycles := d.cycles
  instruction := d.instruction
  board := d.board.transfer φ ρ

namespace Board

variable (φ : β → γ) (ρ : InstructionBytes → InstructionBytes) (s : Board β)

@[simp] theorem regs_transfer : (s.transfer φ ρ).cpu.regs = s.cpu.regs := rfl

@[simp] theorem iff2_transfer : (s.transfer φ ρ).cpu.iff2 = s.cpu.iff2 := rfl

@[simp] theorem mode_transfer : (s.transfer φ ρ).cpu.mode = s.cpu.mode := rfl

@[simp] theorem bus_transfer : (s.transfer φ ρ).bus = φ s.bus := rfl

/-! ### Moves that stay inside the processor -/

@[simp] theorem transfer_mapRegs (f : Registers → Registers) :
    (s.transfer φ ρ).mapRegs f = (s.mapRegs f).transfer φ ρ := rfl

@[simp] theorem transfer_jumpTo (pc : UInt16) :
    (s.transfer φ ρ).jumpTo pc = (s.jumpTo pc).transfer φ ρ := rfl

@[simp] theorem transfer_drop : (s.transfer φ ρ).drop = s.drop.transfer φ ρ := rfl

@[simp] theorem transfer_setMode (m : IndexMode) :
    (s.transfer φ ρ).setMode m = (s.setMode m).transfer φ ρ := rfl

@[simp] theorem transfer_halt : (s.transfer φ ρ).halt = s.halt.transfer φ ρ := rfl

@[simp] theorem transfer_disableInterrupts :
    (s.transfer φ ρ).disableInterrupts = s.disableInterrupts.transfer φ ρ := rfl

@[simp] theorem transfer_enableInterrupts :
    (s.transfer φ ρ).enableInterrupts = s.enableInterrupts.transfer φ ρ := rfl

@[simp] theorem indexValue_transfer : (s.transfer φ ρ).indexValue = s.indexValue := rfl

@[simp] theorem pointer_transfer : (s.transfer φ ρ).pointer = s.pointer := rfl

@[simp] theorem pairValue_transfer (p : Pair) : (s.transfer φ ρ).pairValue p = s.pairValue p := rfl

@[simp] theorem transfer_setPairValue (p : Pair) (w : UInt16) :
    (s.transfer φ ρ).setPairValue p w = (s.setPairValue p w).transfer φ ρ := rfl

@[simp] theorem loadMode_transfer (dst src : Reg8) :
    (s.transfer φ ρ).loadMode dst src = s.loadMode dst src := rfl

@[simp] theorem transfer_chargeIf (taken : Bool) (n : Nat) :
    (s.transfer φ ρ).chargeIf taken n = (s.chargeIf taken n).transfer φ ρ := by
  cases taken <;> rfl

end Board

variable [Bus β] [Bus γ]

/-- A map between surroundings that respects what a processor learns of them and does to them. -/
structure Bus.Hom (φ : β → γ) : Prop where
  read (bus : β) (a : UInt16) : read (φ bus) a = read bus a
  write (bus : β) (a : UInt16) (v : UInt8) : write (φ bus) a v = φ (write bus a v)
  note (n : Notice) (bus : β) : note n (φ bus) = φ (note n bus)
  portIn (bus : β) (a : UInt16) : portIn (φ bus) a = ((portIn bus a).1, φ (portIn bus a).2)
  portOut (bus : β) (a : UInt16) (v : UInt8) : portOut (φ bus) a v = φ (portOut bus a v)

theorem Bus.hom_id : Bus.Hom (id : β → β) :=
  ⟨fun _ _ => rfl, fun _ _ _ => rfl, fun _ _ => rfl, fun _ _ => rfl, fun _ _ _ => rfl⟩

/-- Such a map, with a map between records that respects the bytes that they keep and what is
appended to them. -/
structure Board.Hom (φ : β → γ) (ρ : InstructionBytes → InstructionBytes) : Prop
    extends Bus.Hom φ where
  bytes (bs : InstructionBytes) : (ρ bs).toList = bs.toList
  append (bs : InstructionBytes) (b : UInt8) : ρ (bs.push b) = (ρ bs).push b

namespace Board.Hom

variable {φ : β → γ} {ρ : InstructionBytes → InstructionBytes} (h : Board.Hom φ ρ) (s : Board β)

include h

/-! ### Moves that read or write -/

@[simp] theorem load (a : UInt16) : (s.transfer φ ρ).load a = s.load a := h.read _ _

@[simp] theorem store (a : UInt16) (v : UInt8) :
    (s.transfer φ ρ).store a v = (s.store a v).transfer φ ρ :=
  congrArg (Board.mk (s.transfer φ ρ).cpu) (h.write _ _ _)

@[simp] theorem nextByte : (s.transfer φ ρ).nextByte = s.nextByte := h.load s _

@[simp] theorem skip : (s.transfer φ ρ).skip = s.skip.transfer φ ρ := by
  rw [Board.skip, h.nextByte]
  simp only [Board.skip, Board.transfer, h.append]

@[simp] theorem skipOpcode : (s.transfer φ ρ).skipOpcode = s.skipOpcode.transfer φ ρ := by
  rw [Board.skipOpcode, h.skip]
  rfl

@[simp] theorem nextWord : (s.transfer φ ρ).nextWord = s.nextWord := by
  rw [Board.nextWord, h.skip, h.nextByte, h.nextByte, Board.nextWord]

@[simp] theorem skipWord : (s.transfer φ ρ).skipWord = s.skipWord.transfer φ ρ := by
  rw [Board.skipWord, h.skip, h.skip, Board.skipWord]

@[simp] theorem readWord (bus : β) (a : UInt16) :
    EightBit.readWord (φ bus) a = EightBit.readWord bus a := by
  rw [EightBit.readWord, h.read, h.read, EightBit.readWord]

@[simp] theorem writeWord (bus : β) (a w : UInt16) :
    EightBit.writeWord (φ bus) a w = φ (EightBit.writeWord bus a w) := by
  rw [EightBit.writeWord, h.write, h.write, EightBit.writeWord]

@[simp] theorem push (w : UInt16) : (s.transfer φ ρ).push w = (s.push w).transfer φ ρ := by
  rw [Board.push, Board.bus_transfer, pushWord, h.write, h.write]
  rfl

@[simp] theorem stackTop : (s.transfer φ ρ).stackTop = s.stackTop := h.readWord _ _

@[simp] theorem aim (x : Reg8) : (s.transfer φ ρ).aim x = (s.aim x).transfer φ ρ := by
  rw [Board.aim, h.nextByte, h.skip, Board.aim, apply_ite (Board.transfer φ ρ)]
  rfl

@[simp] theorem operandIn (m : IndexMode) (x : Reg8) :
    (s.transfer φ ρ).operandIn m x = s.operandIn m x := by
  cases x with
  | atHl => exact h.load s _
  | _ => rfl

@[simp] theorem setOperandIn (m : IndexMode) (x : Reg8) (v : UInt8) :
    (s.transfer φ ρ).setOperandIn m x v = (s.setOperandIn m x v).transfer φ ρ := by
  cases x with
  | atHl => exact h.store s _ v
  | _ => rfl

@[simp] theorem operand (x : Reg8) : (s.transfer φ ρ).operand x = s.operand x := h.operandIn s _ x

@[simp] theorem setOperand (x : Reg8) (v : UInt8) :
    (s.transfer φ ρ).setOperand x v = (s.setOperand x v).transfer φ ρ := h.setOperandIn s _ x v

@[simp] theorem update (x : Reg8) (f : Registers → UInt8 → UInt8)
    (g : Registers → UInt8 → Registers) :
    (s.transfer φ ρ).update x f g = (s.update x f g).transfer φ ρ := by
  rw [Board.update, h.aim, h.operand, Board.transfer_mapRegs, h.setOperand, Board.regs_transfer,
    Board.update]

@[simp] theorem updateIndexed (copy : Option Reg8) (f : Registers → UInt8 → UInt8)
    (g : Registers → UInt8 → Registers) :
    (s.transfer φ ρ).updateIndexed copy f g = (s.updateIndexed copy f g).transfer φ ρ := by
  have hstore (v : UInt8) : ((s.transfer φ ρ).mapRegs (g · v)).store s.pointer (f s.cpu.regs v) =
      ((s.mapRegs (g · v)).store s.pointer (f s.cpu.regs v)).transfer φ ρ :=
    h.store (s.mapRegs (g · v)) _ _
  unfold Board.updateIndexed
  dsimp only
  rw [Board.pointer_transfer, h.load, Board.regs_transfer, hstore]
  cases copy with
  | none => rfl
  | some x => exact h.setOperandIn _ _ x _

/-! ### Branches and words -/

@[simp] theorem jumpRelative (taken : Bool) :
    (s.transfer φ ρ).jumpRelative taken = (s.jumpRelative taken).transfer φ ρ := by
  rw [Board.jumpRelative, h.nextByte, h.skip]
  cases taken <;> rfl

@[simp] theorem jumpAbsolute (taken : Bool) :
    (s.transfer φ ρ).jumpAbsolute taken = (s.jumpAbsolute taken).transfer φ ρ := by
  rw [Board.jumpAbsolute, h.nextWord, h.skipWord]
  cases taken <;> rfl

@[simp] theorem callIf (taken : Bool) :
    (s.transfer φ ρ).callIf taken = (s.callIf taken).transfer φ ρ := by
  rw [Board.callIf, h.nextWord, h.skipWord]
  cases taken with
  | false => rfl
  | true => exact congrArg (Board.jumpTo · s.nextWord) (h.push s.skipWord _)

@[simp] theorem returnIf (taken : Bool) :
    (s.transfer φ ρ).returnIf taken = (s.returnIf taken).transfer φ ρ := by
  rw [Board.returnIf, h.stackTop]
  cases taken <;> rfl

@[simp] theorem returnFromInterrupt :
    (s.transfer φ ρ).returnFromInterrupt = s.returnFromInterrupt.transfer φ ρ :=
  h.returnIf { s with cpu := { s.cpu with iff1 := s.cpu.iff2 } } true

@[simp] theorem ignoreInvalid (opcode : UInt8) :
    (s.transfer φ ρ).ignoreInvalid opcode = (s.ignoreInvalid opcode).transfer φ ρ := by
  rw [Board.ignoreInvalid, Board.bus_transfer, h.note]
  simp only [Board.transfer, h.bytes]
  rfl

@[simp] theorem storeWord (p : Pair) :
    (s.transfer φ ρ).storeWord p = (s.storeWord p).transfer φ ρ := by
  rw [Board.storeWord, h.nextWord, h.skipWord, Board.bus_transfer, h.writeWord]
  rfl

@[simp] theorem loadWord (p : Pair) :
    (s.transfer φ ρ).loadWord p = (s.loadWord p).transfer φ ρ := by
  rw [Board.loadWord, h.nextWord, h.skipWord, Board.bus_transfer, h.readWord]
  rfl

@[simp] theorem exchangeStackTop :
    (s.transfer φ ρ).exchangeStackTop = s.exchangeStackTop.transfer φ ρ := by
  rw [Board.exchangeStackTop, h.stackTop, Board.bus_transfer, h.writeWord]
  rfl

@[simp] theorem rotateDigitsRight :
    (s.transfer φ ρ).rotateDigitsRight = s.rotateDigitsRight.transfer φ ρ := by
  rw [Board.rotateDigitsRight, Board.regs_transfer, h.load, h.store]
  rfl

@[simp] theorem rotateDigitsLeft :
    (s.transfer φ ρ).rotateDigitsLeft = s.rotateDigitsLeft.transfer φ ρ := by
  rw [Board.rotateDigitsLeft, Board.regs_transfer, h.load, h.store]
  rfl

/-! ### Devices -/

@[simp] theorem outputA : (s.transfer φ ρ).outputA = s.outputA.transfer φ ρ := by
  rw [Board.outputA, h.nextByte, h.skip, Board.bus_transfer, h.portOut]
  rfl

@[simp] theorem inputA : (s.transfer φ ρ).inputA = s.inputA.transfer φ ρ := by
  rw [Board.inputA, h.nextByte, h.skip, Board.bus_transfer, h.portIn]
  rfl

@[simp] theorem inputByC (dst : Option Reg8) :
    (s.transfer φ ρ).inputByC dst = (s.inputByC dst).transfer φ ρ := by
  unfold Board.inputByC
  dsimp only
  rw [Board.bus_transfer, Board.regs_transfer, h.portIn]
  cases dst with
  | none => rfl
  | some x =>
    have htaken := h.setOperandIn (Board.mapRegs ⟨s.cpu, (Z80.portIn s.bus s.cpu.regs.bc).2⟩
      (·.inputFlags (Z80.portIn s.bus s.cpu.regs.bc).1)) .hl x
    exact htaken _

@[simp] theorem outputByC (src : Option Reg8) :
    (s.transfer φ ρ).outputByC src = (s.outputByC src).transfer φ ρ := by
  unfold Board.outputByC
  dsimp only
  rw [Board.bus_transfer, Board.regs_transfer, h.portOut]
  cases src with
  | none => rfl
  | some x =>
    dsimp only
    rw [h.operandIn]
    rfl

theorem copyByte (increment : Bool) :
    (s.transfer φ ρ).copyByte increment =
      ((s.copyByte increment).1, (s.copyByte increment).2.transfer φ ρ) := by
  rw [Board.copyByte, Board.regs_transfer, h.load, h.store]
  rfl

theorem compareByte (increment : Bool) :
    (s.transfer φ ρ).compareByte increment =
      ((s.compareByte increment).1, (s.compareByte increment).2.transfer φ ρ) := by
  rw [Board.compareByte, Board.regs_transfer, h.load]
  rfl

theorem inputByte (increment : Bool) :
    (s.transfer φ ρ).inputByte increment =
      ((s.inputByte increment).1, (s.inputByte increment).2.transfer φ ρ) := by
  rw [Board.inputByte, Board.bus_transfer, Board.regs_transfer, h.portIn]
  dsimp only
  rw [h.write]
  rfl

theorem outputByte (increment : Bool) :
    (s.transfer φ ρ).outputByte increment =
      ((s.outputByte increment).1, (s.outputByte increment).2.transfer φ ρ) := by
  rw [Board.outputByte, Board.bus_transfer, Board.regs_transfer, h.load, h.portOut]
  rfl

@[simp] theorem block (op : BlockOp) (increment repeats : Bool) :
    (s.transfer φ ρ).block op increment repeats = (s.block op increment repeats).transfer φ ρ := by
  -- The repeating form returns to its opcode, which the surroundings do not show.
  have hrepeat (again : Bool) (t : Board β) :
      (if (repeats && again) = true then
        ((t.transfer φ ρ).jumpTo ((t.transfer φ ρ).cpu.regs.pc - 2)).charge Board.repeatCost
      else t.transfer φ ρ) =
      (if (repeats && again) = true then
        (t.jumpTo (t.cpu.regs.pc - 2)).charge Board.repeatCost else t).transfer φ ρ := by
    rw [apply_ite (Board.transfer φ ρ)]
    rfl
  unfold Board.block
  cases op <;> dsimp only
  · rw [h.copyByte]
    exact hrepeat _ _
  · rw [h.compareByte]
    exact hrepeat _ _
  · rw [h.inputByte]
    exact hrepeat _ _
  · rw [h.outputByte]
    exact hrepeat _ _

/-! ### Instructions and steps -/

/-- An instruction does the same to the processor, and the same to the surroundings up to `φ`. -/
theorem execute (i : Instruction) :
    (s.transfer φ ρ).execute i = (s.execute i).transfer φ ρ := by
  cases i with
  | im => rfl
  | _ => simp [Board.execute, h]

theorem decodeFirst : (s.transfer φ ρ).decodeFirst = s.decodeFirst.transfer φ ρ := by
  rw [Board.decodeFirst, h.nextByte, h.skipOpcode]
  rfl

theorem lookUp (d : Decoding β) (page : UInt8 → Entry) :
    (d.transfer φ ρ).lookUp page (s.transfer φ ρ) = (d.lookUp page s).transfer φ ρ := by
  rw [Decoding.lookUp, h.nextByte, h.skipOpcode]
  rfl

theorem followIndex (d : Decoding β) (m : IndexMode) :
    (d.transfer φ ρ).followIndex m = (d.followIndex m).map (Decoding.transfer φ ρ) := by
  have hnext : (d.transfer φ ρ).board.nextByte = d.board.nextByte := h.nextByte d.board
  rw [Decoding.followIndex, hnext, Decoding.followIndex]
  split
  · rfl
  · exact congrArg some (h.lookUp (d.board.setMode m) d _)

theorem skipIndexCb : (s.transfer φ ρ).skipIndexCb = s.skipIndexCb.transfer φ ρ := by
  rw [Board.skipIndexCb, h.nextByte, h.skip, h.skip]
  rfl

theorem next? (d : Decoding β) :
    (d.transfer φ ρ).next? = d.next?.map (Decoding.transfer φ ρ) := by
  obtain ⟨cycles, instruction, board⟩ := d
  cases instruction with
  | prefixIx | prefixIy => exact h.followIndex _ _
  | prefixEd => exact congrArg some (h.lookUp (board.setMode .hl) _ _)
  | prefixCb => exact congrArg some (h.lookUp board _ _)
  | prefixIndexCb =>
    have hentry : (board.transfer φ ρ).skip.nextByte = board.skip.nextByte := by
      rw [h.skip, h.nextByte]
    refine congrArg some ?_
    simp only [Decoding.transfer, hentry, h.skipIndexCb]
  | _ => rfl

theorem resolve (n : Nat) (d : Decoding β) :
    (d.transfer φ ρ).resolve n = (d.resolve n).transfer φ ρ := by
  induction n generalizing d with
  | zero => rfl
  | succ n ih =>
    rw [Decoding.resolve, h.next?, Decoding.resolve]
    cases d.next? with
    | none => rfl
    | some e => exact ih e

theorem decoded : (s.transfer φ ρ).decoded = s.decoded.transfer φ ρ := by
  rw [Board.decoded, h.decodeFirst, h.resolve, Board.decoded]

theorem executeFound (d : Decoding β) :
    (d.transfer φ ρ).execute = { d.execute with board := d.execute.board.transfer φ ρ } := by
  have hexecuted : (d.board.transfer φ ρ).execute d.instruction =
      (d.board.execute d.instruction).transfer φ ρ := h.execute _ _
  rw [Decoding.execute, Decoding.execute]
  simp only [Decoding.transfer, hexecuted]
  rfl

end Board.Hom

/-! ### Other surroundings -/

namespace Bus.Hom

variable {φ : β → γ} (h : Bus.Hom φ) (s : Board β)

include h

/-- A step takes as long and executes the same. -/
theorem step : (s.map φ).step = s.step.map φ := by
  have hom : Board.Hom φ id := ⟨h, fun _ => rfl, fun _ _ => rfl⟩
  cases hh : s.cpu.halted with
  | true =>
    rw [Board.step_of_halted hh, Board.step_of_halted (s := s.map φ) hh]
    rfl
  | false =>
    have hfound : (s.map φ).started.begin.decoded = s.started.begin.decoded.transfer φ id :=
      hom.decoded s.started.begin
    rw [Board.step_eq_execute hh, Board.step_eq_execute (s := s.map φ) hh, hfound,
      hom.executeFound]
    rfl

end Bus.Hom

/-! ### Other buffers -/

/-- Boards whose processors are alike, in the same surroundings. -/
structure Board.Alike {β : Type} (s t : Board β) : Prop where
  cpu : Recording.Alike s.cpu t.cpu
  bus : t.bus = s.bus

/-- Decoders that have found the same, at the same cost. -/
structure Decoding.Alike {β : Type} (d e : Decoding β) : Prop where
  cycles : e.cycles = d.cycles
  instruction : e.instruction = d.instruction
  board : d.board.Alike e.board

/-- Steps that take as long, execute the same and lead to boards that are alike. -/
structure Stepped.Alike {β : Type} (r q : Stepped β) : Prop where
  cycles : q.cycles = r.cycles
  executed : q.executed = r.executed
  board : r.board.Alike q.board

namespace Board

/-- A processor does not notice that its buffer is another one. -/
theorem hom_inBuffer (buffer : Vector UInt8 maxInstructionBytes) :
    Board.Hom (id : β → β) (·.inBuffer buffer) :=
  ⟨Bus.hom_id, fun bs => bs.toList_inBuffer buffer, fun bs b => bs.inBuffer_push buffer b⟩

omit [Bus β] in
theorem alike_inBuffer (s : Board β) (buffer : Vector UInt8 maxInstructionBytes) :
    s.Alike (s.transfer id (·.inBuffer buffer)) :=
  ⟨.setRecord s.cpu (s.cpu.fetched.toList_inBuffer buffer), rfl⟩

omit [Bus β] in
theorem Alike.eq_transfer {s t : Board β} (h : s.Alike t) :
    t = s.transfer id (·.inBuffer t.cpu.fetched.buffer) :=
  congr (congrArg Board.mk h.cpu.eq_inBuffer) h.bus

/-- The decoder finds the same on boards that are alike. -/
theorem Alike.decoded {s t : Board β} (h : s.Alike t) : s.decoded.Alike t.decoded := by
  rw [h.eq_transfer, (hom_inBuffer _).decoded]
  exact ⟨rfl, rfl, alike_inBuffer _ _⟩

end Board

theorem Decoding.Alike.execute {d e : Decoding β} (h : d.Alike e) : d.execute.Alike e.execute := by
  have htransfer : e = d.transfer id (·.inBuffer e.board.cpu.fetched.buffer) := by
    obtain ⟨cycles, instruction, board⟩ := e
    obtain ⟨rfl, rfl, hboard⟩ := h
    exact congrArg (Decoding.mk _ _) hboard.eq_transfer
  rw [htransfer, (Board.hom_inBuffer _).executeFound]
  exact ⟨rfl, rfl, Board.alike_inBuffer _ _⟩

/-- Steps of processors that are not halted are alike if they begin alike. -/
theorem Board.Alike.step_of_begin {s t : Board β} (h : s.started.begin.Alike t.started.begin)
    (hrun : s.cpu.halted = false) : s.step.Alike t.step := by
  have hhalted : t.started.begin.cpu.halted = s.started.begin.cpu.halted := by
    rw [h.cpu.rest]
    rfl
  have hrun' : t.cpu.halted = false := hhalted.trans hrun
  rw [step_eq_execute hrun, step_eq_execute hrun']
  exact h.decoded.execute

end EightBit.Z80
