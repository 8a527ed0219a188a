/-!
# A small congruential generator

A 64-bit linear congruential generator whose state is permuted into 32-bit outputs. It expands a
seed into the key of a stronger generator.

## Main definitions

* `Pcg.advance`, `Pcg.output`: the next state, and the output of a state.
* `Pcg.words`: the outputs of the states that follow a seed.
-/

namespace EightBit.Pcg

/-- The next state. -/
def advance (s : UInt64) : UInt64 :=
  s * 6364136223846793005 + 11634580027462260723

/-- The output of a state: its middle bits, rotated right by its five upper bits. -/
def output (s : UInt64) : UInt32 :=
  let x := (((s >>> 18) ^^^ s) >>> 27).toUInt32
  let k := (s >>> 59).toUInt32
  (x >>> k) ||| (x <<< ((32 - k) &&& 31))

/-- The outputs of the `n` states after `s`. -/
def words (s : UInt64) : (n : Nat) → List UInt32
  | 0 => []
  | n + 1 =>
    let s := advance s
    output s :: words s n

end EightBit.Pcg
