import EightBit.Proofs.Sm83.Arithmetic
import EightBit.Proofs.Sm83.UnusedFlags
import EightBit.Proofs.WordAdder

/-!
# Words on the SM83

An addition to `HL` does what two additions of bytes would do, the one of the lower bytes first and
then the one of the upper, with the carry of the lower; the zero flag is kept. Where the stack
pointer is moved by a signed byte, carry and half carry are those of an addition of bytes: of its
lower byte and of that byte, as if both were unsigned.

## Main definitions

* `Registers.LeavesSum`, `Registers.ReportsOffset`: what instructions on bytes say about the
  registers that an instruction on words leaves.
* `Board.CalculatesWords`: this, and what numbers say, for the three instructions.

## Main results

* `Registers.leavesSum_addHl`, `Registers.reportsOffset_of_flags`: the instructions and those on
  bytes.
* `Board.calculatesWords`: the instructions on every board.
-/

namespace EightBit.Sm83

namespace Registers

/-- The registers `q`, which an addition to `HL` has left of `r`, hold there and in carry and half
carry what instructions on bytes have made. -/
structure LeavesSum (r q : Registers) (made : UInt16 × Registers) : Prop where
  result : q.hl = made.1
  half : q.flag .h = made.2.flag .h
  carry : q.flag .c = made.2.flag .c
  subtracted : q.flag .n = false
  zero : q.flag .z = r.flag .z
  kept : q = { r with f := q.f, h := q.h, l := q.l }

/-- The registers `q` report the carries of an instruction on bytes, which has left `made`. -/
structure ReportsOffset (q made : Registers) : Prop where
  half : q.flag .h = made.flag .h
  carry : q.flag .c = made.flag .c
  subtracted : q.flag .n = false
  zero : q.flag .z = false

variable (r : Registers)

/-- The flags after an addition without the carry. -/
theorem flag_add (y : UInt8) (x : Flag) :
    (r.alu .add y).flag x =
      let s := addBytes r.a y false
      match x with
      | .z => s.result == 0
      | .n => false
      | .h => s.half
      | .c => s.carry :=
  flag_of_flagByte _ rfl x

/-- An addition of the lower bytes, and one with the carry of the upper. -/
theorem byHalves_add (x y : UInt16) :
    byHalves (alu · .add) (alu · .adc) r x y =
      ((addWords x y false).result,
        { r with
          a := (addHigh x y false).result
          f := flagByte ((addHigh x y false).result == 0) false (addHigh x y false).half
            (addHigh x y false).carry }) := by
  have hcarry : ((Accumulator.load r (loByte x)).alu .add (loByte y)).flag .c =
      (addLow x y false).carry :=
    flag_add (Accumulator.load r (loByte x)) (loByte y) .c
  rw [(result_addWords x y false).1, addHigh, ← hcarry]
  rfl

theorem hl_addHl (v : UInt16) : (r.addHl v).hl = (addWords r.hl v false).result :=
  word_hiByte_loByte _

/-- An addition to `HL` is two of bytes, of which the second takes the carry. -/
theorem leavesSum_addHl (v : UInt16) :
    LeavesSum r (r.addHl v) (byHalves (alu · .add) (alu · .adc) r r.hl v) := by
  have hf : (r.addHl v).f = flagByte (r.flag .z) false (addWords r.hl v false).half
    (addWords r.hl v false).carry := rfl
  rw [byHalves_add]
  refine ⟨r.hl_addHl v, ?_, ?_, flag_of_flagByte _ hf .n, flag_of_flagByte _ hf .z, rfl⟩
  · calc (r.addHl v).flag .h
      _ = (addWords r.hl v false).half := flag_of_flagByte _ hf .h
      _ = (addHigh r.hl v false).half := half_addWords _ _ _
      _ = _ := (flag_of_flagByte _ rfl .h).symm
  · calc (r.addHl v).flag .c
      _ = (addWords r.hl v false).carry := flag_of_flagByte _ hf .c
      _ = (addHigh r.hl v false).carry := (result_addWords _ _ _).2
      _ = _ := (flag_of_flagByte _ rfl .c).symm

/-- The flags of a moved stack pointer are those of an addition to its lower byte. -/
theorem reportsOffset_of_flags {q : Registers} {d : UInt8} (hf : q.f = (r.spOffsetFlags d).f) :
    ReportsOffset q ((Accumulator.load r (loByte r.sp)).alu .add d) where
  half := by
    rw [flag_add]
    exact flag_of_flagByte q hf .h
  carry := by
    rw [flag_add]
    exact flag_of_flagByte q hf .c
  subtracted := flag_of_flagByte q hf .n
  zero := flag_of_flagByte q hf .z

end Registers

section

variable {β : Type} [Bus β] (s : Board β)

theorem Board.sp_skip : s.skip.cpu.regs.sp = s.cpu.regs.sp := by
  obtain ⟨pc, h⟩ := s.regs_skip_eq
  rw [h]

theorem Board.f_addSp :
    (s.execute .addSp).cpu.regs.f = (s.cpu.regs.spOffsetFlags s.nextByte).f := by
  obtain ⟨pc, h⟩ := s.regs_skip_eq
  change (s.skip.cpu.regs.spOffsetFlags s.nextByte).f = _
  rw [h]
  rfl

theorem Board.f_loadHlSp :
    (s.execute .loadHlSp).cpu.regs.f = (s.cpu.regs.spOffsetFlags s.nextByte).f :=
  s.f_addSp

theorem Board.sp_addSp :
    (s.execute .addSp).cpu.regs.sp = s.cpu.regs.sp + displacement s.nextByte := by
  rw [← s.sp_skip]
  rfl

theorem Board.hl_loadHlSp :
    (s.execute .loadHlSp).cpu.regs.hl = s.cpu.regs.sp + displacement s.nextByte := by
  rw [← s.sp_skip]
  exact word_hiByte_loByte _

end

/-- What the instructions with words leave on a board, as instructions with bytes and as numbers say
it. -/
structure Board.CalculatesWords {β : Type} [Bus β] (s : Board β) (p : Pair) : Prop where
  add : Registers.LeavesSum s.cpu.regs (s.execute (.addHl p)).cpu.regs
    (byHalves (Registers.alu · .add) (Registers.alu · .adc) s.cpu.regs s.cpu.regs.hl
      (s.cpu.regs.pair p))
  add_sum : (s.execute (.addHl p)).cpu.regs.hl.toNat =
    (s.cpu.regs.hl.toNat + (s.cpu.regs.pair p).toNat) % 65536
  addSp : Registers.ReportsOffset (s.execute .addSp).cpu.regs
    ((Accumulator.load s.cpu.regs (loByte s.cpu.regs.sp)).alu .add s.nextByte)
  addSp_sum : ((s.execute .addSp).cpu.regs.sp.toNat : Int) =
    (s.cpu.regs.sp.toNat + signedByte s.nextByte) % 65536
  loadHlSp : Registers.ReportsOffset (s.execute .loadHlSp).cpu.regs
    ((Accumulator.load s.cpu.regs (loByte s.cpu.regs.sp)).alu .add s.nextByte)
  loadHlSp_sum : ((s.execute .loadHlSp).cpu.regs.hl.toNat : Int) =
    (s.cpu.regs.sp.toNat + signedByte s.nextByte) % 65536

/-- The instructions with words do what those with bytes do, and what numbers say. -/
theorem Board.calculatesWords {β : Type} [Bus β] (s : Board β) (p : Pair) :
    s.CalculatesWords p where
  add := Registers.leavesSum_addHl _ _
  add_sum := by
    have hl : (s.execute (.addHl p)).cpu.regs.hl = (addWords _ _ false).result :=
      Registers.hl_addHl _ _
    rw [hl, toNat_result_addWords, Bool.toNat_false, Nat.add_zero]
  addSp := s.cpu.regs.reportsOffset_of_flags s.f_addSp
  addSp_sum := by
    rw [s.sp_addSp]
    exact toNat_add_displacement _ _
  loadHlSp := s.cpu.regs.reportsOffset_of_flags s.f_loadHlSp
  loadHlSp_sum := by
    rw [s.hl_loadHlSp]
    exact toNat_add_displacement _ _

end EightBit.Sm83
