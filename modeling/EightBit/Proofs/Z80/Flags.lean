import EightBit.Proofs.Bits
import EightBit.Z80.Alu

/-!
# Reading the flags of the Z80

Each flag is a bit of the flag register. What an instruction leaves in a flag is what it put there
last, or what the flag held before.

## Main definitions

* `Flag.bit`, `Flag.masks`: the position of a flag, and the bits of several.

## Main results

* `Registers.flag_setFlag`: setting a flag shows in that flag and in no other.
* `Registers.setFlags_cons`: flags are set one after the other.
* `Registers.setFlags_eq`: setting flags changes no other register.
* `Registers.setFlags_and_not_masks`, `Registers.setFlags_congr`: setting flags keeps the other
  bits, and forgets what the flags were.
* `Registers.flag_of_flagByte`: the flags of a register that has been rebuilt.
-/

namespace EightBit.Z80

/-- The bits of the flag register that setting some flags overwrites. -/
def Flag.masks (flags : List (Flag × Bool)) : UInt8 :=
  flags.foldr (fun p m => p.1.mask ||| m) 0

/-- The position of a flag in the flag register. -/
def Flag.bit : Flag → Nat
  | .s => 7
  | .z => 6
  | .h => 4
  | .pv => 2
  | .n => 1
  | .c => 0

theorem Flag.hasBit_mask (x y : Flag) : hasBit x.mask y.bit = decide (x = y) := by
  cases x <;> cases y <;> rfl

theorem Flag.hasBit_mask_iff (x : Flag) : ∀ k < 8, hasBit x.mask k = decide (k = x.bit) := by
  cases x <;> decide

namespace Registers

variable (r : Registers)

theorem flag_eq_hasBit (x : Flag) : r.flag x = hasBit r.f x.bit :=
  and_mask_bne_zero r.f x.hasBit_mask_iff

theorem hasBit_setFlag (x : Flag) (on : Bool) (k : Nat) :
    hasBit (r.setFlag x on).f k = if hasBit x.mask k then on else hasBit r.f k := by
  rw [setFlag]
  cases on with
  | true =>
    rw [if_pos rfl, hasBit_or]
    cases hasBit x.mask k <;> simp
  | false =>
    rw [if_neg Bool.false_ne_true, hasBit_and_not]
    cases hasBit x.mask k <;> simp

/-- Setting a flag shows in that flag and in no other. -/
@[simp] theorem flag_setFlag (x y : Flag) (on : Bool) :
    (r.setFlag x on).flag y = if x = y then on else r.flag y := by
  rw [flag_eq_hasBit, flag_eq_hasBit, hasBit_setFlag, x.hasBit_mask]
  by_cases h : x = y <;> simp [h]

@[simp] theorem setFlags_nil : r.setFlags [] = r := rfl

@[simp] theorem setFlags_cons (p : Flag × Bool) (flags : List (Flag × Bool)) :
    r.setFlags (p :: flags) = (r.setFlag p.1 p.2).setFlags flags := rfl

/-- Setting flags changes the flag register and nothing else. -/
theorem setFlags_eq (flags : List (Flag × Bool)) :
    r.setFlags flags = { r with f := (r.setFlags flags).f } := by
  induction flags generalizing r with
  | nil => rfl
  | cons p flags ih => exact ih (r.setFlag p.1 p.2)

/-- Setting flags does not touch the program counter and the refresh counter. -/
theorem setFlags_pc (flags : List (Flag × Bool)) (pc : UInt16) (refresh : UInt8) :
    { r with pc := pc, r := refresh }.setFlags flags =
      { r.setFlags flags with pc := pc, r := refresh } := by
  induction flags generalizing r with
  | nil => rfl
  | cons p flags ih => exact ih (r.setFlag p.1 p.2)

/-- Setting flags keeps the bits of the others. -/
theorem setFlags_and_not_masks (flags : List (Flag × Bool)) :
    (r.setFlags flags).f &&& ~~~Flag.masks flags = r.f &&& ~~~Flag.masks flags := by
  induction flags generalizing r with
  | nil => rfl
  | cons p flags ih =>
    refine ext_hasBit fun k => ?_
    have hflags := congrArg (hasBit · k) (ih (r.setFlag p.1 p.2))
    simp only [hasBit_and_not, hasBit_setFlag] at hflags
    simp only [setFlags_cons, Flag.masks, List.foldr_cons, hasBit_and_not, hasBit_or]
    cases hp : hasBit p.1.mask k with
    | true => simp
    | false => simpa [hp, Flag.masks] using hflags

variable {r} in
/-- Flags that are set may have been anything before. -/
theorem setFlags_congr {q : Registers} {flags : List (Flag × Bool)}
    (h : r.f &&& ~~~Flag.masks flags = q.f &&& ~~~Flag.masks flags) :
    (r.setFlags flags).f = (q.setFlags flags).f := by
  induction flags generalizing r q with
  | nil => simpa [Flag.masks] using h
  | cons p flags ih =>
    refine ih (ext_hasBit fun k => ?_)
    have hk := congrArg (hasBit · k) h
    simp only [Flag.masks, List.foldr_cons, hasBit_and_not, hasBit_or] at hk ⊢
    simp only [hasBit_setFlag]
    cases hp : hasBit p.1.mask k with
    | true => rfl
    | false => simpa [hp] using hk

/-- The flags of a register that has been rebuilt. -/
theorem flag_of_flagByte {s z h pv n c : Bool} (hf : r.f = flagByte s z h pv n c) (x : Flag) :
    r.flag x =
      match x with
      | .s => s
      | .z => z
      | .h => h
      | .pv => pv
      | .n => n
      | .c => c := by
  rw [flag, hf]
  clear hf
  revert s z h pv n c
  cases x <;> decide

end Registers

end EightBit.Z80
