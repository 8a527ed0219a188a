import EightBit.Proofs.Sm83.Fetch
import EightBit.Proofs.Sm83.Flags
import EightBit.Proofs.Z80.Flags
import EightBit.Z80.Execute
import EightBit.Z80.PortBus

/-!
# Boards of the two processors that are alike

The SM83 has the main registers of the Z80 and four of its flags, in other places of the flag
register. A board of the one and a board of the other are alike if these and their memory are the
same. This module shows that what both processors do in the same way keeps boards alike: arithmetic,
fetching, the stack, operands and branches.

## Main definitions

* `Sm83.Flag.shared`, `Sm83.Cond.shared`: the flags and conditions of the SM83 as those of the Z80.
* `RegistersAlike`, `BoardsAlike`: the relation.
* `Underway`: boards that are alike while both execute an instruction.

## Main results

* `RegistersAlike.alu`, `RegistersAlike.incFlags`, `RegistersAlike.addHl`,
  `RegistersAlike.shiftFlags`, `RegistersAlike.bitFlags`: arithmetic.
* `Underway.operand`, `Underway.setOperand`, `Underway.update`: byte operands.
* `Underway.jumpRelative`, `Underway.callIf`: branches.
-/

namespace EightBit

/-- The flag of the Z80 that has the same meaning. -/
def Sm83.Flag.shared : Sm83.Flag → Z80.Flag
  | .z => .z
  | .n => .n
  | .h => .h
  | .c => .c

/-- The condition of the Z80 that has the same meaning. -/
def Sm83.Cond.shared : Sm83.Cond → Z80.Cond
  | .nz => .nz
  | .z => .z
  | .nc => .nc
  | .c => .c

/-- The registers and flags that both processors have are the same. -/
structure RegistersAlike (r : Sm83.Registers) (q : Z80.Registers) : Prop where
  a : r.a = q.a
  b : r.b = q.b
  c : r.c = q.c
  d : r.d = q.d
  e : r.e = q.e
  h : r.h = q.h
  l : r.l = q.l
  sp : r.sp = q.sp
  pc : r.pc = q.pc
  flag : ∀ x : Sm83.Flag, r.flag x = q.flag x.shared

/-! ### Registers -/

namespace RegistersAlike

variable {r : Sm83.Registers} {q : Z80.Registers} (hr : RegistersAlike r q)
include hr

theorem bc : r.bc = q.bc := by
  rw [Sm83.Registers.bc, Z80.Registers.bc, hr.b, hr.c]

theorem de : r.de = q.de := by
  rw [Sm83.Registers.de, Z80.Registers.de, hr.d, hr.e]

theorem hl : r.hl = q.hl := by
  rw [Sm83.Registers.hl, Z80.Registers.hl, hr.h, hr.l]

theorem pair {p : Pair} (hp : p ≠ .af) : r.pair p = q.pair p := by
  cases p with
  | bc => exact hr.bc
  | de => exact hr.de
  | hl => exact hr.hl
  | sp => exact hr.sp
  | af => exact absurd rfl hp

theorem setPair {p : Pair} (hp : p ≠ .af) (w : UInt16) :
    RegistersAlike (r.setPair p w) (q.setPair p w) := by
  cases p with
  | bc => exact { hr with b := rfl, c := rfl }
  | de => exact { hr with d := rfl, e := rfl }
  | hl => exact { hr with h := rfl, l := rfl }
  | sp => exact { hr with sp := rfl }
  | af => exact absurd rfl hp

theorem holds (cc : Sm83.Cond) : r.holds cc = q.holds cc.shared := by
  cases cc with
  | nz => exact congrArg not (hr.flag .z)
  | z => exact hr.flag .z
  | nc => exact congrArg not (hr.flag .c)
  | c => exact hr.flag .c

/-! ### Arithmetic -/

/-- The accumulator and the whole flag register have been replaced. -/
theorem withFlags {a f f' : UInt8}
    (hf : ∀ x : Sm83.Flag, { r with f := f }.flag x = { q with f := f' }.flag x.shared) :
    RegistersAlike { r with a := a, f := f } { q with a := a, f := f' } :=
  { hr with a := rfl, flag := hf }

/-- The accumulator has been replaced, and the flags have been rebuilt. -/
theorem rebuilt (a : UInt8) (s z n hc pv c : Bool) :
    RegistersAlike { r with a := a, f := Sm83.flagByte z n hc c }
      { q with a := a, f := Z80.flagByte s z hc pv n c } := by
  refine hr.withFlags fun x => ?_
  rw [Sm83.Registers.flag_of_flagByte _ rfl, Z80.Registers.flag_of_flagByte _ rfl]
  cases x <;> rfl

theorem carryIn (withCarry : Bool) : r.carryIn withCarry = q.carryIn withCarry :=
  congrArg (withCarry && ·) (hr.flag .c)

theorem alu (op : AluOp) (v : UInt8) : RegistersAlike (r.alu op v) (q.alu op v) := by
  have hadd (withCarry : Bool) : RegistersAlike (r.add v withCarry) (q.add v withCarry) := by
    rw [Sm83.Registers.add, Z80.Registers.add, hr.a, hr.carryIn]
    exact hr.rebuilt ..
  have hsub (withCarry : Bool) : RegistersAlike (r.sub v withCarry) (q.sub v withCarry) := by
    rw [Sm83.Registers.sub, Z80.Registers.sub, hr.a, hr.carryIn]
    exact hr.rebuilt ..
  cases op with
  | add => exact hadd false
  | adc => exact hadd true
  | sub => exact hsub false
  | sbc => exact hsub true
  | and | xor | or =>
    rw [Sm83.Registers.alu, Z80.Registers.alu, hr.a]
    exact hr.rebuilt ..
  | cp =>
    rw [Sm83.Registers.alu, Z80.Registers.alu, Sm83.Registers.compare, Z80.Registers.compare, hr.a]
    exact hr.rebuilt ..

theorem incFlags (v : UInt8) : RegistersAlike (r.incFlags v) (q.incFlags v) := by
  refine { hr with flag := fun x => ?_ }
  rw [Sm83.Registers.flag_of_flagByte _ rfl, Z80.Registers.incFlags]
  cases x <;> simp [Sm83.Flag.shared, hr.flag]

theorem decFlags (v : UInt8) : RegistersAlike (r.decFlags v) (q.decFlags v) := by
  refine { hr with flag := fun x => ?_ }
  rw [Sm83.Registers.flag_of_flagByte _ rfl, Z80.Registers.decFlags]
  cases x <;> simp [Sm83.Flag.shared, hr.flag]

theorem addHl (v : UInt16) : RegistersAlike (r.addHl v) (q.addIndex .hl v) := by
  have hflags (half carry : Bool) :
      RegistersAlike { r with f := Sm83.flagByte (r.flag .z) false half carry }
        (q.setFlags [(.n, false), (.h, half), (.c, carry)]) := by
    refine { hr with flag := fun x => ?_ }
    rw [Sm83.Registers.flag_of_flagByte _ rfl]
    cases x <;> simp [Sm83.Flag.shared, hr.flag]
  rw [Sm83.Registers.addHl, hr.hl]
  exact (hflags _ _).setPair (p := .hl) nofun _

theorem shiftFlags (op : ShiftOp) (v : UInt8) :
    RegistersAlike (r.shiftFlags op v) (q.shiftFlags op v) := by
  rw [Sm83.Registers.shiftFlags, Z80.Registers.shiftFlags, Sm83.Registers.shifted,
    Z80.Registers.shifted, hr.flag .c]
  exact { hr.rebuilt .. with a := hr.a }

theorem bitFlags (k v : UInt8) : RegistersAlike (r.bitFlags k v) (q.bitFlags k v) := by
  have hzero : (v &&& bitMask k == 0) = !(v &&& bitMask k != 0) := (Bool.not_not _).symm
  refine { hr with flag := fun x => ?_ }
  rw [Sm83.Registers.bitFlags, Z80.Registers.bitFlags, hzero]
  cases x <;> simp [Sm83.Flag.shared, hr.flag]

theorem complement : RegistersAlike r.complement q.complement := by
  refine { hr with a := congrArg (~~~·) hr.a, flag := fun x => ?_ }
  have hkept : { r with a := ~~~r.a }.flag x = { q with a := ~~~q.a }.flag x.shared := hr.flag x
  rw [Sm83.Registers.complement, Z80.Registers.complement]
  cases x <;> simp_all [Sm83.Flag.shared]

theorem setCarry : RegistersAlike r.setCarry q.setCarry := by
  refine { hr with flag := fun x => ?_ }
  rw [Sm83.Registers.setCarry, Z80.Registers.setCarry]
  cases x <;> simp [Sm83.Flag.shared, hr.flag]

end RegistersAlike

/-- Boards whose registers and memory are the same, as far as both have them. -/
structure BoardsAlike (s : Sm83.Board FlatBus) (t : Z80.Board Z80.PortBus) : Prop where
  regs : RegistersAlike s.cpu.regs t.cpu.regs
  memory : s.bus.memory = t.bus.flat.memory

/-- Boards that are alike while an instruction executes: the latch of the `HALT` bug is clear, and
no index register stands for `HL`. -/
structure Underway (s : Sm83.Board FlatBus) (t : Z80.Board Z80.PortBus) : Prop
    extends BoardsAlike s t where
  haltBug : s.cpu.haltBug = false
  mode : t.cpu.mode = .hl

/-! ### Boards -/

namespace Underway

variable {s : Sm83.Board FlatBus} {t : Z80.Board Z80.PortBus} (h : Underway s t)
include h

theorem mapRegs {f : Sm83.Registers → Sm83.Registers} {g : Z80.Registers → Z80.Registers}
    (hfg : RegistersAlike (f s.cpu.regs) (g t.cpu.regs)) : Underway (s.mapRegs f) (t.mapRegs g) :=
  { h with regs := hfg }

theorem jumpTo (a : UInt16) : Underway (s.jumpTo a) (t.jumpTo a) :=
  h.mapRegs { h.regs with pc := rfl }

theorem chargeIf (taken : Bool) (m n : Nat) :
    Underway (s.chargeIf taken m) (t.chargeIf taken n) := by
  cases taken <;> exact { h with }

theorem load (a : UInt16) : s.load a = t.load a :=
  congrArg (·.read a) h.memory

theorem store (a : UInt16) (v : UInt8) : Underway (s.store a v) (t.store a v) :=
  { h with memory := congrArg (·.write a v) h.memory }

/-! #### Fetching -/

theorem nextByte : s.nextByte = t.nextByte := by
  rw [Sm83.Board.nextByte, Z80.Board.nextByte, h.regs.pc, h.load]

theorem skip : Underway s.skip t.skip where
  regs := by
    rw [Sm83.Board.regs_skip h.haltBug]
    exact { h.regs with pc := congrArg (· + 1) h.regs.pc }
  memory := by
    rw [Sm83.Board.bus_skip]
    exact h.memory
  haltBug := Sm83.Board.haltBug_skip s
  mode := h.mode

theorem nextWord : s.nextWord = t.nextWord := by
  rw [Sm83.Board.nextWord, Z80.Board.nextWord, h.skip.nextByte, h.nextByte]

theorem skipWord : Underway s.skipWord t.skipWord := h.skip.skip

/-! #### The stack -/

theorem push (w : UInt16) : Underway (s.push w) (t.push w) where
  regs := { h.regs with sp := congrArg (· - 2) h.regs.sp }
  memory := by
    rw [Sm83.Board.push, Z80.Board.push, h.regs.sp]
    exact congrArg (fun m : Memory =>
      (m.write (t.cpu.regs.sp - 1) (hiByte w)).write (t.cpu.regs.sp - 2) (loByte w)) h.memory
  haltBug := h.haltBug
  mode := h.mode

theorem stackTop : s.stackTop = t.stackTop := by
  have hload (a : UInt16) : read s.bus a = read t.bus a := h.load a
  rw [Sm83.Board.stackTop, Z80.Board.stackTop, readWord, readWord, h.regs.sp, hload, hload]

theorem drop : Underway s.drop t.drop :=
  h.mapRegs { h.regs with sp := congrArg (· + 2) h.regs.sp }

/-! #### Operands -/

theorem operand (x : Reg8) : s.operand x = t.operand x := by
  rw [Z80.Board.operand, h.mode]
  cases x with
  | b => exact h.regs.b
  | c => exact h.regs.c
  | d => exact h.regs.d
  | e => exact h.regs.e
  | h =>
    refine h.regs.h.trans ?_
    exact (hiByte_word t.cpu.regs.h t.cpu.regs.l).symm
  | l =>
    refine h.regs.l.trans ?_
    exact (loByte_word t.cpu.regs.h t.cpu.regs.l).symm
  | atHl =>
    have hpointer : t.pointer = s.cpu.regs.hl := by
      rw [Z80.Board.pointer, h.mode, h.regs.hl]
    rw [Z80.Board.operandIn, hpointer, ← h.load]
    rfl
  | a => exact h.regs.a

theorem setOperand (x : Reg8) (v : UInt8) : Underway (s.setOperand x v) (t.setOperand x v) := by
  have hhi (lo : UInt8) : v = hiByte (word v lo) := (hiByte_word v lo).symm
  have hlo (hi : UInt8) : v = loByte (word hi v) := (loByte_word hi v).symm
  rw [Z80.Board.setOperand, h.mode]
  cases x with
  | b => exact { h with regs := { h.regs with b := rfl } }
  | c => exact { h with regs := { h.regs with c := rfl } }
  | d => exact { h with regs := { h.regs with d := rfl } }
  | e => exact { h with regs := { h.regs with e := rfl } }
  | h =>
    have hkept : s.cpu.regs.l = loByte (word v (loByte t.cpu.regs.hl)) := by
      rw [loByte_word, Z80.Registers.hl, loByte_word, h.regs.l]
    exact { h with regs := { h.regs with h := hhi _, l := hkept } }
  | l =>
    have hkept : s.cpu.regs.h = hiByte (word (hiByte t.cpu.regs.hl) v) := by
      rw [hiByte_word, Z80.Registers.hl, hiByte_word, h.regs.h]
    exact { h with regs := { h.regs with h := hkept, l := hlo _ } }
  | atHl =>
    have hpointer : t.pointer = s.cpu.regs.hl := by
      rw [Z80.Board.pointer, h.mode, h.regs.hl]
    rw [Z80.Board.setOperandIn, hpointer]
    exact h.store _ v
  | a => exact { h with regs := { h.regs with a := rfl } }

theorem aim_eq (x : Reg8) : t.aim x = t := by
  rw [Z80.Board.aim, h.mode]
  simp

/-- A byte operand is replaced, and the flags are set. -/
theorem update (x : Reg8) {f : Sm83.Registers → UInt8 → UInt8} {f' : Z80.Registers → UInt8 → UInt8}
    {g : Sm83.Registers → UInt8 → Sm83.Registers} {g' : Z80.Registers → UInt8 → Z80.Registers}
    (hf : ∀ v, f s.cpu.regs v = f' t.cpu.regs v)
    (hg : ∀ v, RegistersAlike (g s.cpu.regs v) (g' t.cpu.regs v)) :
    Underway (s.update x f g) (t.update x f' g') := by
  rw [Sm83.Board.update, Z80.Board.update, h.aim_eq, h.operand, hf]
  exact (h.mapRegs (hg _)).setOperand x _

/-! #### Branches -/

theorem jumpRelative (taken : Bool) : Underway (s.jumpRelative taken) (t.jumpRelative taken) := by
  rw [Sm83.Board.jumpRelative, Z80.Board.jumpRelative, h.nextByte, h.skip.regs.pc]
  cases taken with
  | false => exact h.skip
  | true => exact h.skip.jumpTo _

theorem jumpAbsolute (taken : Bool) : Underway (s.jumpAbsolute taken) (t.jumpAbsolute taken) := by
  rw [Sm83.Board.jumpAbsolute, Z80.Board.jumpAbsolute, h.nextWord]
  cases taken with
  | false => exact h.skipWord
  | true => exact h.skipWord.jumpTo _

theorem callIf (taken : Bool) : Underway (s.callIf taken) (t.callIf taken) := by
  rw [Sm83.Board.callIf, Z80.Board.callIf, h.nextWord, h.skipWord.regs.pc]
  cases taken with
  | false => exact h.skipWord
  | true => exact (h.skipWord.push _).jumpTo _

theorem returnIf (taken : Bool) : Underway (s.returnIf taken) (t.returnIf taken) := by
  rw [Sm83.Board.returnIf, Z80.Board.returnIf, h.stackTop]
  cases taken with
  | false => exact h
  | true => exact h.drop.jumpTo _

end Underway

end EightBit
