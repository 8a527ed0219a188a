import EightBit.Z80.Step

/-!
# A processor that works with an index register instead of HL

An instruction behind an index prefix works with `IX` or `IY` where it would work with `HL`. Seen
the other way round, the processor is one whose `HL` and index register are exchanged, which
executes the instruction without the prefix. This module compares the two, move by move; they also
differ by one count of the refresh counter and by the bytes fetched, which include the prefix.

## Main definitions

* `Registers.exchangeIndex`: the registers with `HL` and an index register exchanged.
* `Registers.behind`: the registers as a processor behind a prefix holds them.
* `Board.behind`: that processor.

## Main results

* `Registers.exchangeIndex_exchangeIndex`: exchanging twice changes nothing.
* `Board.operand_behind`, `Board.setOperand_behind`, `Board.pairValue_behind`,
  `Board.setPairValue_behind`: operands behind a prefix are those without it.
-/

namespace EightBit.Z80

namespace Registers

/-- Exchanges `HL` with the register that stands for it in a mode. -/
def exchangeIndex (r : Registers) (m : IndexMode) : Registers :=
  match m with
  | .hl => r
  | .ix => { r.setHl r.ix with ix := r.hl }
  | .iy => { r.setHl r.iy with iy := r.hl }

/-- Exchanging twice changes nothing. -/
@[simp] theorem exchangeIndex_exchangeIndex (r : Registers) (m : IndexMode) :
    (r.exchangeIndex m).exchangeIndex m = r := by
  cases m <;> simp [exchangeIndex, setHl, hl]

theorem exchangeIndex_refresh (r : Registers) (m : IndexMode) :
    r.refresh.exchangeIndex m = (r.exchangeIndex m).refresh := by
  cases m <;> rfl

theorem exchangeIndex_setPc (r : Registers) (m : IndexMode) (w : UInt16) :
    { r with pc := w }.exchangeIndex m = { r.exchangeIndex m with pc := w } := by
  cases m <;> rfl

/-- The registers of a processor behind a prefix, when those of the processor without it are `r`:
the register that stands for `HL` holds what `HL` holds there, and one more opcode was fetched. -/
def behind (r : Registers) (m : IndexMode) : Registers :=
  (r.exchangeIndex m).refresh

section

variable (r : Registers) (m : IndexMode)

/-- Registers that were exchanged before an opcode was fetched are as they were, two opcodes
later. -/
theorem behind_exchangeIndex :
    ({ r.exchangeIndex m with pc := r.pc + 1 + 1 }.refresh).behind m =
      { { r with pc := r.pc + 1 }.refresh with pc := r.pc + 1 + 1 }.refresh := by
  rw [behind, exchangeIndex_refresh, exchangeIndex_setPc, exchangeIndex_exchangeIndex]
  rfl

@[simp] theorem behind_a : (r.behind m).a = r.a := by cases m <;> rfl

@[simp] theorem behind_b : (r.behind m).b = r.b := by cases m <;> rfl

@[simp] theorem behind_sp : (r.behind m).sp = r.sp := by cases m <;> rfl

@[simp] theorem behind_pc : (r.behind m).pc = r.pc := by cases m <;> rfl

@[simp] theorem index_behind : (r.behind m).index m = r.hl := by cases m <;> rfl

@[simp] theorem setIndex_behind (w : UInt16) :
    (r.behind m).setIndex m w = (r.setHl w).behind m := by
  cases m <;> simp [behind, exchangeIndex, setIndex, setHl, hl, refresh]

theorem modePair_behind (p : Pair) : (r.behind m).modePair m p = r.modePair .hl p := by
  cases p with
  | hl => exact r.index_behind m
  | _ => cases m <;> rfl

theorem setModePair_behind (p : Pair) (w : UInt16) :
    (r.behind m).setModePair m p w = (r.setModePair .hl p w).behind m := by
  cases p with
  | hl => exact r.setIndex_behind m w
  | _ => cases m <;> rfl

@[simp] theorem holds_behind (cc : Cond) : (r.behind m).holds cc = r.holds cc := by
  cases cc <;> cases m <;> rfl

/-! ### Arithmetic -/

@[simp] theorem setFlag_behind (x : Flag) (on : Bool) :
    (r.behind m).setFlag x on = (r.setFlag x on).behind m := by
  cases m <;> rfl

@[simp] theorem setFlags_behind (flags : List (Flag × Bool)) :
    (r.behind m).setFlags flags = (r.setFlags flags).behind m := by
  induction flags generalizing r with
  | nil => rfl
  | cons p flags ih => exact (congrArg (setFlags · flags) (r.setFlag_behind m p.1 p.2)).trans (ih _)

theorem alu_behind (op : AluOp) (v : UInt8) :
    (r.behind m).alu op v = (r.alu op v).behind m := by
  cases op <;> cases m <;> rfl

theorem incFlags_behind (v : UInt8) : (r.behind m).incFlags v = (r.incFlags v).behind m :=
  r.setFlags_behind m _

theorem decFlags_behind (v : UInt8) : (r.behind m).decFlags v = (r.decFlags v).behind m :=
  r.setFlags_behind m _

theorem rotateA_behind (op : ShiftOp) : (r.behind m).rotateA op = (r.rotateA op).behind m := by
  cases m <;> rfl

theorem decimalAdjust_behind : (r.behind m).decimalAdjust = r.decimalAdjust.behind m := by
  cases m <;> rfl

theorem complement_behind : (r.behind m).complement = r.complement.behind m := by
  cases m <;> rfl

theorem setCarry_behind : (r.behind m).setCarry = r.setCarry.behind m :=
  r.setFlags_behind m _

theorem flipCarry_behind : (r.behind m).flipCarry = r.flipCarry.behind m := by
  cases m <;> rfl

theorem exchangeAf_behind : (r.behind m).exchangeAf = r.exchangeAf.behind m := by
  cases m <;> rfl

theorem addIndex_behind (v : UInt16) :
    (r.behind m).addIndex m v = (r.addIndex .hl v).behind m := by
  rw [addIndex, addIndex, index_behind, setFlags_behind, setIndex_behind]
  rfl

end

end Registers

/-! ### Boards -/

namespace Board

variable {β : Type} [Bus β]

/-- The board behind a prefix that stands for the board `t` without it. The registers are exchanged
as `e` says, `m` is the mode of the prefix, and `bytes` were fetched from the address `a` on. -/
def behind (e m : IndexMode) (bytes : InstructionBytes) (a : UInt16) (t : Board β) : Board β where
  cpu := { t.cpu with
    regs := t.cpu.regs.behind e
    mode := m
    fetched := bytes
    instructionAddress := a }
  bus := t.bus

variable (e m : IndexMode) (bytes : InstructionBytes) (a : UInt16) (t : Board β)

omit [Bus β] in
@[simp] theorem regs_behind : (t.behind e m bytes a).cpu.regs = t.cpu.regs.behind e := rfl

omit [Bus β] in
@[simp] theorem mode_behind : (t.behind e m bytes a).cpu.mode = m := rfl

/-! #### Moves that do not look at the mode -/

omit [Bus β] in
/-- A change of registers, where behind the prefix another one does the same. -/
theorem mapRegs_behind {f g : Registers → Registers}
    (h : f (t.cpu.regs.behind e) = (g t.cpu.regs).behind e) :
    (t.behind e m bytes a).mapRegs f = (t.mapRegs g).behind e m bytes a := by
  rw [mapRegs, behind, h]
  rfl

omit [Bus β] in
theorem jumpTo_behind (pc : UInt16) :
    (t.behind e m bytes a).jumpTo pc = (t.jumpTo pc).behind e m bytes a :=
  t.mapRegs_behind e m bytes a (by cases e <;> rfl)

omit [Bus β] in
theorem drop_behind : (t.behind e m bytes a).drop = t.drop.behind e m bytes a :=
  t.mapRegs_behind e m bytes a (by cases e <;> rfl)

omit [Bus β] in
theorem chargeIf_behind (taken : Bool) (n : Nat) :
    (t.behind e m bytes a).chargeIf taken n = (t.chargeIf taken n).behind e m bytes a := by
  cases taken <;> rfl

theorem store_behind (x : UInt16) (v : UInt8) :
    (t.behind e m bytes a).store x v = (t.store x v).behind e m bytes a := rfl

theorem push_behind (w : UInt16) :
    (t.behind e m bytes a).push w = (t.push w).behind e m bytes a := by
  cases e <;> rfl

theorem stackTop_behind : (t.behind e m bytes a).stackTop = t.stackTop := by
  cases e <;> rfl

theorem nextByte_behind : (t.behind e m bytes a).nextByte = t.nextByte := by
  cases e <;> rfl

theorem skip_behind :
    (t.behind e m bytes a).skip = t.skip.behind e m (bytes.push t.nextByte) a := by
  cases e <;> rfl

theorem nextWord_behind : (t.behind e m bytes a).nextWord = t.nextWord := by
  rw [nextWord, nextByte_behind, skip_behind, nextByte_behind, nextWord]

theorem skipWord_behind :
    (t.behind e m bytes a).skipWord =
      t.skipWord.behind e m ((bytes.push t.nextByte).push t.skip.nextByte) a := by
  rw [skipWord, skip_behind, skip_behind, skipWord]

/-! #### Branches -/

theorem jumpRelative_behind (taken : Bool) :
    (t.behind e m bytes a).jumpRelative taken =
      (t.jumpRelative taken).behind e m (bytes.push t.nextByte) a := by
  rw [jumpRelative, nextByte_behind, skip_behind]
  cases taken with
  | false => rfl
  | true => cases e <;> rfl

theorem jumpAbsolute_behind (taken : Bool) :
    (t.behind e m bytes a).jumpAbsolute taken =
      (t.jumpAbsolute taken).behind e m ((bytes.push t.nextByte).push t.skip.nextByte) a := by
  rw [jumpAbsolute, nextWord_behind, skipWord_behind]
  cases taken with
  | false => rfl
  | true => exact t.skipWord.jumpTo_behind e m _ a _

theorem callIf_behind (taken : Bool) :
    (t.behind e m bytes a).callIf taken =
      (t.callIf taken).behind e m ((bytes.push t.nextByte).push t.skip.nextByte) a := by
  rw [callIf, nextWord_behind, skipWord_behind]
  cases taken with
  | false => rfl
  | true => cases e <;> rfl

theorem returnIf_behind (taken : Bool) :
    (t.behind e m bytes a).returnIf taken = (t.returnIf taken).behind e m bytes a := by
  cases taken with
  | false => rfl
  | true =>
    rw [returnIf, if_pos rfl, stackTop_behind, drop_behind, jumpTo_behind]
    rfl

/-! #### Devices -/

theorem outputA_behind :
    (t.behind e m bytes a).outputA = t.outputA.behind e m (bytes.push t.nextByte) a := by
  cases e <;> rfl

theorem inputA_behind :
    (t.behind e m bytes a).inputA = t.inputA.behind e m (bytes.push t.nextByte) a := by
  cases e <;> rfl

/-! #### Operands that the mode redirects -/

section

variable {t} (ht : t.cpu.mode = .hl)
include ht

omit [Bus β] in
theorem indexValue_behind : (t.behind m m bytes a).indexValue = t.indexValue := by
  rw [indexValue, indexValue, ht]
  exact t.cpu.regs.index_behind m

omit [Bus β] in
theorem pairValue_behind (p : Pair) : (t.behind m m bytes a).pairValue p = t.pairValue p := by
  rw [pairValue, pairValue, ht]
  exact t.cpu.regs.modePair_behind m p

omit [Bus β] in
theorem setPairValue_behind (p : Pair) (w : UInt16) :
    (t.behind m m bytes a).setPairValue p w = (t.setPairValue p w).behind m m bytes a := by
  rw [setPairValue, setPairValue, ht]
  exact t.mapRegs_behind m m bytes a (t.cpu.regs.setModePair_behind m p w)

/-- An operand that is not in memory is that of the processor without the prefix. -/
theorem operand_behind {x : Reg8} (hx : x.isIndirect = false) :
    (t.behind m m bytes a).operand x = t.operand x := by
  rw [operand, operand, mode_behind, ht]
  cases x with
  | atHl => exact absurd hx nofun
  | h => exact congrArg hiByte (t.cpu.regs.index_behind m)
  | l => exact congrArg loByte (t.cpu.regs.index_behind m)
  | _ => cases m <;> rfl

theorem setOperand_behind {x : Reg8} (hx : x.isIndirect = false) (v : UInt8) :
    (t.behind m m bytes a).setOperand x v = (t.setOperand x v).behind m m bytes a := by
  rw [setOperand, setOperand, mode_behind, ht]
  cases x with
  | atHl => exact absurd hx nofun
  | h =>
    rw [setOperandIn, setOperandIn]
    refine t.mapRegs_behind m m bytes a ?_
    rw [Registers.index_behind, Registers.setIndex_behind]
    rfl
  | l =>
    rw [setOperandIn, setOperandIn]
    refine t.mapRegs_behind m m bytes a ?_
    rw [Registers.index_behind, Registers.setIndex_behind]
    rfl
  | _ => cases m <;> rfl

end

end Board

end EightBit.Z80
