import EightBit.Proofs.Z80.Flags
import EightBit.Proofs.Z80.IndexPrefix

/-!
# Instructions with a byte operand in memory

An instruction with a byte operand in memory reads that byte and the registers, and leaves registers
and perhaps a byte to be stored at the same place. How the place is found, by `HL` or by an index
register and a displacement, makes no other difference.

## Main definitions

* `Instruction.effect`: what an instruction makes of the registers and of the byte.
* `Board.PointsTo`: the place of the operand is known.
* `Board.finish`: a board after an effect.
* `Instruction.unindexed`, `Instruction.destination`: the form without a displacement, and the
  register that receives a byte.

## Main results

* `Board.execute_eq_effect`: executing an instruction whose operand has been found.
* `Instruction.effect_frame`: the registers that an effect leaves alone.
* `Instruction.effect_unindexed`: the effect does not depend on how the place was found.
-/

namespace EightBit

theorem Reg8.eq_atHl {x : Reg8} (h : x.isIndirect = true) : x = .atHl := by
  cases x <;> first | rfl | exact absurd h Bool.false_ne_true

namespace Z80

namespace Registers

/-- The value of a byte operand, when the one in memory is `v`. -/
def byteOperand (r : Registers) (v : UInt8) : Reg8 → UInt8
  | .b => r.b
  | .c => r.c
  | .d => r.d
  | .e => r.e
  | .h => r.h
  | .l => r.l
  | .atHl => v
  | .a => r.a

/-- A byte is put into an operand: the registers, and the byte to be stored in memory. -/
def putByte (r : Registers) (x : Reg8) (w : UInt8) : Registers × Option UInt8 :=
  match x with
  | .b => ({ r with b := w }, none)
  | .c => ({ r with c := w }, none)
  | .d => ({ r with d := w }, none)
  | .e => ({ r with e := w }, none)
  | .h => ({ r with h := w }, none)
  | .l => ({ r with l := w }, none)
  | .atHl => (r, some w)
  | .a => ({ r with a := w }, none)

/-- A register, if there is one, receives a byte. -/
def copyTo (r : Registers) (x : Option Reg8) (w : UInt8) : Registers :=
  match x with
  | some x => (r.putByte x w).1
  | none => r

theorem a_copyTo (r : Registers) (x : Option Reg8) (w : UInt8) :
    (r.copyTo x w).a = if x = some .a then w else r.a := by
  cases x with
  | none => rfl
  | some x => cases x <;> rfl

end Registers

namespace Instruction

/-- Whether the instruction has one byte operand in memory. -/
def hasMemoryByte : Instruction → Bool
  | load dst src => dst.isIndirect != src.isIndirect
  | loadImm x | inc8 x | dec8 x | alu _ x => x.isIndirect
  | shift _ x | bit _ x | res _ x | set _ x => x.isIndirect
  | indexShift _ copy | indexRes _ copy | indexSet _ copy => copy != some .atHl
  | indexBit _ => true
  | _ => false

/-- Whether an immediate byte follows the operand. -/
def hasImmediate : Instruction → Bool
  | loadImm _ => true
  | _ => false

/-- What an instruction makes of the registers `r`, of the byte `v` in memory and of the immediate
byte `n`: the registers, and the byte to be stored. -/
def effect (n v : UInt8) (r : Registers) : Instruction → Registers × Option UInt8
  | load dst src => r.putByte dst (r.byteOperand v src)
  | loadImm _ => (r, some n)
  | inc8 _ => (r.incFlags v, some (v + 1))
  | dec8 _ => (r.decFlags v, some (v - 1))
  | alu op _ => (r.alu op v, none)
  | shift op _ => (r.shiftFlags op v, some (r.shifted op v))
  | bit k _ | indexBit k => (r.bitFlags k v, none)
  | res k _ => (r, some (v &&& ~~~bitMask k))
  | set k _ => (r, some (v ||| bitMask k))
  | indexShift op copy =>
    ((r.shiftFlags op v).copyTo copy (r.shifted op v), some (r.shifted op v))
  | indexRes k copy => (r.copyTo copy (v &&& ~~~bitMask k), some (v &&& ~~~bitMask k))
  | indexSet k copy => (r.copyTo copy (v ||| bitMask k), some (v ||| bitMask k))
  | _ => (r, none)

/-- The instruction that does the same to the byte at `HL`. -/
def unindexed : Instruction → Instruction
  | indexShift op _ => shift op .atHl
  | indexBit k => bit k .atHl
  | indexRes k _ => res k .atHl
  | indexSet k _ => set k .atHl
  | i => i

/-- The register that also receives the byte stored. -/
def copied : Instruction → Option Reg8
  | indexShift _ copy | indexRes _ copy | indexSet _ copy => copy
  | _ => none

/-- The register that receives the byte read or stored. -/
def destination : Instruction → Option Reg8
  | load dst _ => if dst.isIndirect then none else some dst
  | i => i.copied

/-- Whether the byte stored is a half of `HL`. -/
def storesHalf : Instruction → Bool
  | load .atHl .h | load .atHl .l => true
  | _ => false

theorem hasMemoryByte_unindexed {i : Instruction} (h : i.hasMemoryByte = true) :
    i.unindexed.hasMemoryByte = true := by
  cases i <;> first | exact h | rfl

theorem hasImmediate_unindexed (i : Instruction) : i.unindexed.hasImmediate = i.hasImmediate := by
  cases i <;> rfl

variable {i : Instruction} (n v : UInt8) (r : Registers)

/-- An effect does not touch the program counter and the refresh counter. -/
theorem effect_pc (i : Instruction) (pc : UInt16) (refresh : UInt8) :
    i.effect n v { r with pc := pc, r := refresh } =
      ({ (i.effect n v r).1 with pc := pc, r := refresh }, (i.effect n v r).2) := by
  cases i with
  | load dst src => cases dst <;> cases src <;> rfl
  | inc8 x | dec8 x => exact congrArg (·, some _) (r.setFlags_pc _ pc refresh)
  | alu op x => cases op <;> rfl
  | bit k x | indexBit k => exact congrArg (·, none) (r.setFlags_pc _ pc refresh)
  | indexShift op copy | indexRes k copy | indexSet k copy =>
    cases copy with
    | none => rfl
    | some x => cases x <;> rfl
  | _ => rfl

/-- Only an immediate operand matters. -/
theorem effect_immediate (h : i.hasImmediate = false) (n' : UInt8) :
    i.effect n v r = i.effect n' v r := by
  cases i <;> first | rfl | exact absurd h.symm Bool.false_ne_true

/-- Besides the accumulator and the flags, an effect changes the register that receives the byte
stored or, if none is, the byte read. -/
theorem effect_frame (h : i.hasMemoryByte = true) :
    (i.effect n v r).1 =
      { r with a := (i.effect n v r).1.a, f := (i.effect n v r).1.f }.copyTo i.destination
        ((i.effect n v r).2.getD v) := by
  cases i with
  | load dst src =>
    cases dst <;> cases src <;> first | rfl | exact absurd h Bool.false_ne_true
  | inc8 x | dec8 x => exact r.setFlags_eq _
  | alu op x => cases op <;> rfl
  | bit k x | indexBit k => exact r.setFlags_eq _
  | indexShift op copy | indexRes k copy | indexSet k copy =>
    cases copy with
    | none => rfl
    | some x => cases x <;> rfl
  | _ => rfl

variable {n v r} in
/-- What an effect makes of the accumulator, the flags and the byte in memory does not depend on
`HL`, unless a half of it is stored. -/
theorem effect_unindexed (h : i.hasMemoryByte = true) {q : Registers}
    (hq : q = { r with h := q.h, l := q.l, pc := q.pc, r := q.r }) :
    (i.effect n v r).1.a =
        ((i.unindexed.effect n v q).1.copyTo i.copied ((i.effect n v r).2.getD v)).a ∧
      (i.effect n v r).1.f = (i.unindexed.effect n v q).1.f ∧
      (i.storesHalf = false → (i.effect n v r).2 = (i.unindexed.effect n v q).2) := by
  rw [hq]
  cases i with
  | load dst src =>
    cases dst <;> cases src <;>
      first
      | exact absurd h Bool.false_ne_true
      | exact ⟨rfl, rfl, fun _ => rfl⟩
      | exact ⟨rfl, rfl, fun h => absurd h.symm Bool.false_ne_true⟩
  | inc8 x | dec8 x => exact ⟨rfl, Registers.setFlags_congr rfl, fun _ => rfl⟩
  | alu op x => cases op <;> exact ⟨rfl, rfl, fun _ => rfl⟩
  | bit k x | indexBit k => exact ⟨rfl, Registers.setFlags_congr rfl, fun _ => rfl⟩
  | indexShift op copy | indexRes k copy | indexSet k copy =>
    cases copy with
    | none => exact ⟨rfl, rfl, fun _ => rfl⟩
    | some x => cases x <;> exact ⟨rfl, rfl, fun _ => rfl⟩
  | _ => exact ⟨rfl, rfl, fun _ => rfl⟩

end Instruction

/-- The surroundings after a byte, if there is one, has been stored at an address. -/
def Bus.putAt {β : Type} [Bus β] (bus : β) (a : UInt16) (w : Option UInt8) : β :=
  match w with
  | some w => write bus a w
  | none => bus

namespace Board

variable {β : Type} [Bus β] {s : Board β} {a : UInt16}

/-- The memory operand has been found at an address: `HL` points there, or the displacement has been
fetched. -/
def PointsTo (s : Board β) (a : UInt16) : Prop :=
  s.cpu.mode = .hl ∧ s.cpu.regs.hl = a ∨ s.cpu.mode ≠ .hl ∧ s.cpu.indexAddress = some a

/-- Registers are left, and perhaps a byte is stored at an address. -/
def finish (s : Board β) (a : UInt16) (e : Registers × Option UInt8) : Board β where
  cpu := { s.cpu with regs := e.1 }
  bus := Bus.putAt s.bus a e.2

/-- The board behind the immediate byte of an instruction, if it has one. -/
def pastImmediate (s : Board β) (i : Instruction) : Board β :=
  if i.hasImmediate then s.skip else s

namespace PointsTo

variable (h : s.PointsTo a)

include h

omit [Bus β] in
theorem pointer : s.pointer = a := by
  rw [Board.pointer]
  obtain ⟨hm, ha⟩ | ⟨hm, ha⟩ := h
  · rw [hm]
    exact ha
  · split
    next hhl => exact absurd hhl hm
    next => rw [ha, Option.getD_some]

/-- The displacement is not fetched again. -/
theorem aim (x : Reg8) : s.aim x = s := by
  rw [Board.aim, if_neg]
  obtain ⟨hm, -⟩ | ⟨-, ha⟩ := h
  · simp [hm]
  · simp [ha]

omit [Bus β] in
theorem mapRegs {f : Registers → Registers} (hf : (f s.cpu.regs).hl = s.cpu.regs.hl) :
    (s.mapRegs f).PointsTo a :=
  h.imp (fun h => ⟨h.1, hf.trans h.2⟩) id

theorem skip : s.skip.PointsTo a := h

theorem operandIn (x : Reg8) : s.operandIn .hl x = s.cpu.regs.byteOperand (s.load a) x := by
  cases x with
  | atHl => exact congrArg s.load h.pointer
  | h => exact hiByte_word _ _
  | l => exact loByte_word _ _
  | _ => rfl

theorem setOperandIn (x : Reg8) (w : UInt8) :
    s.setOperandIn .hl x w = s.finish a (s.cpu.regs.putByte x w) := by
  cases x with
  | atHl =>
    rw [Board.setOperandIn, h.pointer]
    rfl
  | h | l =>
    simp only [Board.setOperandIn, Board.mapRegs, Registers.setIndex, Registers.setHl,
      Registers.index, Registers.hl, hiByte_word, loByte_word]
    rfl
  | _ => rfl

variable {f : Registers → UInt8 → UInt8} {g : Registers → UInt8 → Registers}

/-- The operand is read, and stored at the same place. -/
theorem update (hg : ∀ r v, (g r v).hl = r.hl) :
    s.update .atHl f g =
      s.finish a (g s.cpu.regs (s.load a), some (f s.cpu.regs (s.load a))) := by
  have hload : s.operand .atHl = s.load a := congrArg s.load h.pointer
  have hstore := (h.mapRegs (f := (g · (s.load a))) (hg _ _)).pointer
  rw [Board.update, h.aim, hload, setOperand, Board.setOperandIn, hstore]
  rfl

theorem updateIndexed {copy : Option Reg8} (hcopy : (copy != some .atHl) = true)
    (hg : ∀ r v, (g r v).hl = r.hl) :
    s.updateIndexed copy f g =
      s.finish a ((g s.cpu.regs (s.load a)).copyTo copy (f s.cpu.regs (s.load a)),
        some (f s.cpu.regs (s.load a))) := by
  have hstore := h.mapRegs (f := (g · (s.load a))) (hg _ _)
  simp only [Board.updateIndexed.eq_def, h.pointer]
  cases copy with
  | none => rfl
  | some x =>
    have hput : ((s.mapRegs (g · (s.load a))).store a (f s.cpu.regs (s.load a))).PointsTo a :=
      hstore
    refine (hput.setOperandIn x _).trans ?_
    cases x with
    | atHl => exact absurd hcopy (by decide)
    | _ => rfl

end PointsTo

omit [Bus β] in
theorem loadMode_of_hasMemoryByte {dst src : Reg8}
    (hi : (Instruction.load dst src).hasMemoryByte = true) (s : Board β) :
    s.loadMode dst src = .hl := by
  cases dst <;> cases src <;> first | rfl | exact absurd hi Bool.false_ne_true

/-- An instruction whose operand has been found does what its effect says. -/
theorem execute_eq_effect {i : Instruction} (h : s.PointsTo a) (hi : i.hasMemoryByte = true) :
    s.execute i = (s.pastImmediate i).finish a
      (i.effect s.nextByte (s.load a) (s.pastImmediate i).cpu.regs) := by
  rw [execute.eq_def]
  cases i with
  | load dst src =>
    simp only [h.aim, loadMode_of_hasMemoryByte hi, h.operandIn, h.setOperandIn]
    rfl
  | loadImm x =>
    obtain rfl := Reg8.eq_atHl hi
    simp only [h.aim]
    refine (congrArg (s.skip.store · s.nextByte) h.skip.pointer).trans ?_
    rfl
  | inc8 x =>
    obtain rfl := Reg8.eq_atHl hi
    exact h.update fun _ _ => rfl
  | dec8 x =>
    obtain rfl := Reg8.eq_atHl hi
    exact h.update fun _ _ => rfl
  | alu op x =>
    obtain rfl := Reg8.eq_atHl hi
    simp only [h.aim]
    refine (congrArg (fun p => s.mapRegs (·.alu op (s.load p))) h.pointer).trans ?_
    rfl
  | shift op x =>
    obtain rfl := Reg8.eq_atHl hi
    exact h.update fun _ _ => rfl
  | bit k x =>
    obtain rfl := Reg8.eq_atHl hi
    simp only [h.aim]
    refine (congrArg (fun p => s.mapRegs (·.bitFlags k (s.load p))) h.pointer).trans ?_
    rfl
  | res k x =>
    obtain rfl := Reg8.eq_atHl hi
    exact h.update fun _ _ => rfl
  | set k x =>
    obtain rfl := Reg8.eq_atHl hi
    exact h.update fun _ _ => rfl
  | indexShift op copy => exact h.updateIndexed hi fun _ _ => rfl
  | indexBit k =>
    refine (congrArg (fun p => s.mapRegs (·.bitFlags k (s.load p))) h.pointer).trans ?_
    rfl
  | indexRes k copy => exact h.updateIndexed hi fun _ _ => rfl
  | indexSet k copy => exact h.updateIndexed hi fun _ _ => rfl
  | _ => exact absurd hi Bool.false_ne_true

/-- The same where the registers are those of `q` but for the program counter and the refresh
counter. -/
theorem execute_effect {i : Instruction} {n : UInt8} {q : Registers} (h : s.PointsTo a)
    (hi : i.hasMemoryByte = true) (hn : i.hasImmediate = true → s.nextByte = n)
    (hq : s.cpu.regs = { q with pc := s.cpu.regs.pc, r := s.cpu.regs.r }) :
    (s.execute i).cpu.regs =
        { (i.effect n (s.load a) q).1 with
          pc := (s.pastImmediate i).cpu.regs.pc
          r := s.cpu.regs.r } ∧
      (s.execute i).bus = Bus.putAt s.bus a (i.effect n (s.load a) q).2 := by
  have hpast : (s.pastImmediate i).cpu.regs =
      { q with pc := (s.pastImmediate i).cpu.regs.pc, r := s.cpu.regs.r } := by
    rw [pastImmediate]
    split
    · rw [skip]
      dsimp only
      rw [hq]
    · exact hq
  have hbus : (s.pastImmediate i).bus = s.bus := by
    rw [pastImmediate]
    split <;> rfl
  have heffect : i.effect s.nextByte (s.load a) (s.pastImmediate i).cpu.regs =
      ({ (i.effect n (s.load a) q).1 with
        pc := (s.pastImmediate i).cpu.regs.pc
        r := s.cpu.regs.r }, (i.effect n (s.load a) q).2) := by
    rw [hpast, Instruction.effect_pc]
    cases himm : i.hasImmediate with
    | false => rw [Instruction.effect_immediate s.nextByte _ _ himm n]
    | true => rw [hn himm]
  rw [execute_eq_effect h hi, heffect, finish, hbus]
  exact ⟨rfl, rfl⟩

end Board

end Z80

end EightBit
