import EightBit.Proofs.Z80.Decoded

/-!
# What a step of the Z80 costs

The cost of a step is that of its opcodes, with a charge for a branch that is taken and for a block
instruction that repeats. A prefix leads to opcodes whose cost is bounded in turn, so that what has
been found so far bounds the whole. No step costs more than the 25 cycles of a block instruction
that repeats behind an index prefix.

## Main definitions

* `Instruction.surcharge`: the most that an instruction is charged beyond its opcodes.
* `Instruction.outstanding`: the most that is still to come once an instruction has been found.

## Main results

* `Board.cost_decoded_le`: the opcodes and the surcharge.
* `Board.extraCycles_execute_le`: instruction by instruction.
* `Board.cycles_step_le`, `Board.le_cycles_step`: no step costs more than 25 cycles or less than 4.
-/

namespace EightBit.Z80

/-- The most that an instruction is charged beyond its opcodes. -/
def Instruction.surcharge : Instruction → Nat
  | .djnz => takenCost.djnz
  | .jrIf _ => takenCost.jr
  | .jpIf _ => takenCost.jp
  | .callIf _ => takenCost.call
  | .retIf _ => takenCost.ret
  | .block _ _ repeats => if repeats then Board.repeatCost else 0
  | _ => 0

/-- The most that is still to come once an instruction has been found: for a prefix the opcodes that
it leads to, otherwise the surcharge. -/
def Instruction.outstanding : Instruction → Nat
  | .prefixIx | .prefixIy => 21
  | .prefixIndexCb => 19
  | .prefixEd => 17
  | .prefixCb => 11
  | i => i.surcharge

/-- The most that a step can cost. -/
def maxStepCycles : Nat := 25

/-- The least that a step can cost. -/
def minStepCycles : Nat := 4

theorem Instruction.surcharge_le_outstanding (i : Instruction) : i.surcharge ≤ i.outstanding := by
  cases i with
  | prefixIx | prefixIy | prefixIndexCb | prefixEd | prefixCb => exact Nat.zero_le _
  | _ => exact Nat.le_refl _

/-! ### The pages -/

namespace Decode

theorem cost_primary_le :
    ∀ op, (primary op).cycles + (primary op).instruction.outstanding ≤ maxStepCycles :=
  forall_byte (by decide)

theorem le_cycles_primary : ∀ op, minStepCycles ≤ (primary op).cycles :=
  forall_byte (by decide)

/-- What an index prefix leads to, unless it is another one. -/
theorem cost_index_le :
    ∀ op, isIndexPrefix op = false → (index op).cycles + (index op).instruction.outstanding ≤ 21 :=
  forall_byte (by decide)

theorem cost_indexCb_le :
    ∀ op, (indexCb op).cycles + (indexCb op).instruction.outstanding ≤ 19 :=
  forall_byte (by decide)

theorem cost_ed_le : ∀ op, (ed op).cycles + (ed op).instruction.outstanding ≤ 17 :=
  forall_byte (by decide)

theorem cost_cb_le : ∀ op, (cb op).cycles + (cb op).instruction.outstanding ≤ 11 :=
  forall_byte (by decide)

end Decode

/-! ### The search -/

namespace Decoding

variable {β : Type} [Bus β] {d e : Decoding β}

/-- The cost of what has been found, with the most that is still to come. -/
def costBound (d : Decoding β) : Nat :=
  d.cycles + d.instruction.outstanding

/-- A look-up finds what the prefix has accounted for. -/
theorem costBound_of_next? (h : d.next? = some e) : e.costBound ≤ d.costBound := by
  have hlookUp {page : UInt8 → Entry} {s : Board β} {n : Nat}
      (hpage : (page s.nextByte).cycles + (page s.nextByte).instruction.outstanding ≤ n) :
      (d.lookUp page s).costBound ≤ d.cycles + n := by
    rw [costBound, lookUp, Nat.add_assoc]
    exact Nat.add_le_add_left hpage _
  have hfollow (m : IndexMode) (hm : d.followIndex m = some e) :
      e.costBound ≤ d.cycles + 21 := by
    rw [followIndex] at hm
    split at hm
    next => exact absurd hm.symm (Option.some_ne_none e)
    next hnext =>
      obtain rfl := Option.some.inj hm
      exact hlookUp (Decode.cost_index_le _ (Bool.eq_false_iff.2 hnext))
  rw [costBound, costBound]
  rw [next?] at h
  split at h
  next hi => rw [hi]; exact hfollow _ h
  next hi => rw [hi]; exact hfollow _ h
  next hi =>
    obtain rfl := Option.some.inj h
    rw [hi]
    exact hlookUp (Decode.cost_ed_le _)
  next hi =>
    obtain rfl := Option.some.inj h
    rw [hi]
    exact hlookUp (Decode.cost_cb_le _)
  next hi =>
    obtain rfl := Option.some.inj h
    rw [hi]
    dsimp only
    rw [Nat.add_assoc]
    exact Nat.add_le_add_left (Decode.cost_indexCb_le _) _
  next => exact absurd h.symm (Option.some_ne_none e)

/-- A look-up adds to the cost. -/
theorem cycles_le_of_next? (h : d.next? = some e) : d.cycles ≤ e.cycles := by
  have hfollow (m : IndexMode) (hm : d.followIndex m = some e) : d.cycles ≤ e.cycles := by
    rw [followIndex] at hm
    split at hm
    next => exact absurd hm.symm (Option.some_ne_none e)
    next =>
      obtain rfl := Option.some.inj hm
      exact Nat.le_add_right _ _
  rw [next?] at h
  split at h
  next => exact hfollow _ h
  next => exact hfollow _ h
  next =>
    obtain rfl := Option.some.inj h
    exact Nat.le_add_right _ _
  next =>
    obtain rfl := Option.some.inj h
    exact Nat.le_add_right _ _
  next =>
    obtain rfl := Option.some.inj h
    exact Nat.le_add_right _ _
  next => exact absurd h.symm (Option.some_ne_none e)

end Decoding

namespace Board

variable {β : Type} [Bus β] (s : Board β)

theorem costBound_decodeFirst_le : s.decodeFirst.costBound ≤ maxStepCycles :=
  Decode.cost_primary_le s.nextByte

theorem cost_decoded_le :
    s.decoded.cycles + s.decoded.instruction.surcharge ≤ maxStepCycles := by
  have hbound : s.decoded.costBound ≤ maxStepCycles :=
    Decoding.resolve_induction (P := fun d => d.costBound ≤ maxStepCycles)
      s.costBound_decodeFirst_le (fun _ _ h hd => Nat.le_trans (Decoding.costBound_of_next? h) hd)
      _
  exact Nat.le_trans (Nat.add_le_add_left (Instruction.surcharge_le_outstanding _) _) hbound

/-! ### Charges -/

omit [Bus β] in
variable {s} in
/-- A charge that is made last is all that is charged. -/
theorem extraCycles_chargeIf_le {t : Board β} (h : t.cpu.extraCycles = s.cpu.extraCycles)
    (taken : Bool) (n : Nat) : (t.chargeIf taken n).cpu.extraCycles ≤ s.cpu.extraCycles + n := by
  rw [← h]
  cases taken with
  | false => exact Nat.le_add_right _ _
  | true => exact Nat.le_refl _

@[simp] theorem extraCycles_aim (x : Reg8) : (s.aim x).cpu.extraCycles = s.cpu.extraCycles := by
  rw [aim]
  split <;> rfl

@[simp] theorem extraCycles_setOperandIn (m : IndexMode) (x : Reg8) (v : UInt8) :
    (s.setOperandIn m x v).cpu.extraCycles = s.cpu.extraCycles := by
  cases x <;> rfl

@[simp] theorem extraCycles_update (x : Reg8) (f : Registers → UInt8 → UInt8)
    (g : Registers → UInt8 → Registers) :
    (s.update x f g).cpu.extraCycles = s.cpu.extraCycles :=
  (extraCycles_setOperandIn _ _ x _).trans (s.extraCycles_aim x)

@[simp] theorem extraCycles_updateIndexed (copy : Option Reg8) (f : Registers → UInt8 → UInt8)
    (g : Registers → UInt8 → Registers) :
    (s.updateIndexed copy f g).cpu.extraCycles = s.cpu.extraCycles := by
  cases copy with
  | none => rfl
  | some x => exact extraCycles_setOperandIn _ _ x _

@[simp] theorem extraCycles_inputByC (dst : Option Reg8) :
    (s.inputByC dst).cpu.extraCycles = s.cpu.extraCycles := by
  cases dst with
  | none => rfl
  | some x => exact extraCycles_setOperandIn _ _ x _

@[simp] theorem extraCycles_jumpRelative (taken : Bool) :
    (s.jumpRelative taken).cpu.extraCycles = s.cpu.extraCycles := by
  cases taken <;> rfl

@[simp] theorem extraCycles_jumpAbsolute (taken : Bool) :
    (s.jumpAbsolute taken).cpu.extraCycles = s.cpu.extraCycles := by
  cases taken <;> rfl

@[simp] theorem extraCycles_callIf (taken : Bool) :
    (s.callIf taken).cpu.extraCycles = s.cpu.extraCycles := by
  cases taken <;> rfl

@[simp] theorem extraCycles_returnIf (taken : Bool) :
    (s.returnIf taken).cpu.extraCycles = s.cpu.extraCycles := by
  cases taken <;> rfl

/-- The byte that a block instruction handles, and whether the repeating form goes on. -/
def blockByte (op : BlockOp) (increment : Bool) : Bool × Board β :=
  match op with
  | .load => s.copyByte increment
  | .compare => s.compareByte increment
  | .input => s.inputByte increment
  | .output => s.outputByte increment

theorem block_eq (op : BlockOp) (increment repeats : Bool) :
    s.block op increment repeats =
      let (again, t) := s.blockByte op increment
      if repeats && again then (t.jumpTo (t.cpu.regs.pc - 2)).charge repeatCost else t := by
  cases op <;> rfl

theorem extraCycles_blockByte (op : BlockOp) (increment : Bool) :
    (s.blockByte op increment).2.cpu.extraCycles = s.cpu.extraCycles := by
  cases op <;> rfl

theorem extraCycles_block_le (op : BlockOp) (increment repeats : Bool) :
    (s.block op increment repeats).cpu.extraCycles ≤
      s.cpu.extraCycles + (Instruction.block op increment repeats).surcharge := by
  have hbyte := s.extraCycles_blockByte op increment
  rw [block_eq]
  generalize s.blockByte op increment = result at hbyte
  obtain ⟨again, t⟩ := result
  cases repeats with
  | false => exact Nat.le_of_eq hbyte
  | true =>
    cases again with
    | false => exact Nat.le_trans (Nat.le_of_eq hbyte) (Nat.le_add_right _ _)
    | true => exact Nat.le_of_eq (congrArg (· + repeatCost) hbyte)

/-- An instruction charges its surcharge at most. -/
theorem extraCycles_execute_le (i : Instruction) :
    (s.execute i).cpu.extraCycles ≤ s.cpu.extraCycles + i.surcharge := by
  cases i with
  | djnz => exact extraCycles_chargeIf_le (extraCycles_jumpRelative _ _) _ _
  | jrIf cc => exact extraCycles_chargeIf_le (s.extraCycles_jumpRelative _) _ _
  | jpIf cc => exact extraCycles_chargeIf_le (s.extraCycles_jumpAbsolute _) _ _
  | callIf cc => exact extraCycles_chargeIf_le (s.extraCycles_callIf _) _ _
  | retIf cc => exact extraCycles_chargeIf_le (s.extraCycles_returnIf _) _ _
  | block op increment repeats => exact s.extraCycles_block_le op increment repeats
  | load dst src =>
    have haims := ((s.aim dst).extraCycles_aim src).trans (s.extraCycles_aim dst)
    exact Nat.le_of_eq ((extraCycles_setOperandIn _ _ dst _).trans haims)
  | loadImm x => exact Nat.le_of_eq ((extraCycles_setOperandIn _ _ x _).trans (s.extraCycles_aim x))
  | inc8 x | dec8 x | shift _ x | res _ x | set _ x =>
    exact Nat.le_of_eq (s.extraCycles_update x _ _)
  | alu _ x | bit _ x => exact Nat.le_of_eq (s.extraCycles_aim x)
  | indexShift _ copy | indexRes _ copy | indexSet _ copy =>
    exact Nat.le_of_eq (s.extraCycles_updateIndexed copy _ _)
  | inC dst => exact Nat.le_of_eq (s.extraCycles_inputByC dst)
  | _ => exact Nat.le_refl _

/-! ### Steps -/

variable {s} in
theorem extraCycles_decoded (h : s.cpu.extraCycles = 0) :
    s.begin.decoded.board.cpu.extraCycles = 0 := by
  obtain ⟨pc, r, bytes, m, a, hboard⟩ := s.begin.fetchedFrom_decoded
  rw [hboard]
  exact h

variable {s} in
theorem cycles_executeNext_le (h : s.cpu.extraCycles = 0) :
    s.executeNext.cycles ≤ maxStepCycles := by
  have hextra := s.begin.decoded.board.extraCycles_execute_le s.begin.decoded.instruction
  rw [extraCycles_decoded h, Nat.zero_add] at hextra
  exact Nat.le_trans (Nat.add_le_add_left hextra _) s.begin.cost_decoded_le

/-- No step costs more than 25 cycles. -/
theorem cycles_step_le : s.step.cycles ≤ maxStepCycles := by
  have hidle : idleCycles ≤ maxStepCycles := by decide
  rw [step]
  split
  · exact hidle
  · exact cycles_executeNext_le rfl

/-- No step costs less than a machine cycle. -/
theorem le_cycles_step : minStepCycles ≤ s.step.cycles := by
  have hdecoded (t : Board β) : minStepCycles ≤ t.decoded.cycles :=
    Decoding.resolve_induction (P := fun d => minStepCycles ≤ d.cycles)
      (Decode.le_cycles_primary _)
      (fun _ _ h hd => Nat.le_trans hd (Decoding.cycles_le_of_next? h)) _
  rw [step]
  split
  · exact Nat.le_refl minStepCycles
  · exact Nat.le_trans (hdecoded _) (Nat.le_add_right _ _)

end Board

end EightBit.Z80
