import EightBit.Proofs.Bits
import EightBit.Sm83.Alu

/-!
# Reading the flags of the SM83

Each flag is a bit of the flag register. What an instruction leaves in a flag is what it put there
last, or what the flag held before.

## Main definitions

* `Flag.bit`: the position of a flag.

## Main results

* `Registers.flag_setFlag`: setting a flag shows in that flag and in no other.
* `Registers.flag_of_flagByte`: the flags of a register that has been rebuilt.
-/

namespace EightBit.Sm83

/-- The position of a flag in the flag register. -/
def Flag.bit : Flag → Nat
  | .z => 7
  | .n => 6
  | .h => 5
  | .c => 4

theorem Flag.hasBit_mask (x y : Flag) : hasBit x.mask y.bit = decide (x = y) := by
  cases x <;> cases y <;> rfl

theorem Flag.hasBit_mask_iff (x : Flag) : ∀ k < 8, hasBit x.mask k = decide (k = x.bit) := by
  cases x <;> decide

namespace Registers

variable (r : Registers)

theorem flag_eq_hasBit (x : Flag) : r.flag x = hasBit r.f x.bit :=
  and_mask_bne_zero r.f x.hasBit_mask_iff

/-- Setting a flag shows in that flag and in no other. -/
@[simp] theorem flag_setFlag (x y : Flag) (on : Bool) :
    (r.setFlag x on).flag y = if x = y then on else r.flag y := by
  rw [flag_eq_hasBit, flag_eq_hasBit, setFlag]
  cases on with
  | true =>
    rw [if_pos rfl, hasBit_or, x.hasBit_mask]
    by_cases h : x = y <;> simp [h]
  | false =>
    rw [if_neg Bool.false_ne_true, hasBit_and_not, x.hasBit_mask]
    by_cases h : x = y <;> simp [h]

/-- The flags of a register that has been rebuilt. -/
theorem flag_of_flagByte {z n h c : Bool} (hf : r.f = flagByte z n h c) (x : Flag) :
    r.flag x =
      match x with
      | .z => z
      | .n => n
      | .h => h
      | .c => c := by
  rw [flag, hf]
  clear hf
  revert z n h c
  cases x <;> decide

end Registers

end EightBit.Sm83
