import EightBit.Noise.Pcg

/-!
# The ChaCha keystream

ChaCha with twelve rounds, a 64-bit block counter from zero and a zero nonce, as a generator of
reproducible noise. The eight words of the key come from a 64-bit seed.

## Main definitions

* `ChaCha.quarterRound`, `ChaCha.doubleRound`, `ChaCha.block`: the block function.
* `ChaCha.keystream`: the first bytes of the stream of a key.
* `noise`: the first bytes of the stream of a seed.
-/

namespace EightBit.ChaCha

/-- The sixteen words of a block. -/
abbrev Block : Type := Vector UInt32 16

/-- A word rotated left by `k` bits, for `k` strictly between 0 and 32. -/
def rotateLeft (x k : UInt32) : UInt32 :=
  (x <<< k) ||| (x >>> (32 - k))

/-- Adds word `j` to word `i`, and the sum by exclusive or to word `t`, which is then rotated. -/
def mix (s : Block) (i j t : Fin 16) (k : UInt32) : Block :=
  let sum := s.get i + s.get j
  let s := s.set i sum
  s.set t (rotateLeft (s.get t ^^^ sum) k)

/-- The quarter round on four words. -/
def quarterRound (s : Block) (a b c d : Fin 16) : Block :=
  mix (mix (mix (mix s a b d 16) c d b 12) a b d 8) c d b 7

/-- Two rounds: the columns, then the diagonals. -/
def doubleRound (s : Block) : Block :=
  let s := quarterRound s 0 4 8 12
  let s := quarterRound s 1 5 9 13
  let s := quarterRound s 2 6 10 14
  let s := quarterRound s 3 7 11 15
  let s := quarterRound s 0 5 10 15
  let s := quarterRound s 1 6 11 12
  let s := quarterRound s 2 7 8 13
  quarterRound s 3 4 9 14

/-- The number of double rounds of a block. -/
def doubleRounds : Nat := 6

/-- The key of a stream. -/
abbrev Key : Type := Vector UInt32 8

/-- The words before the rounds: four constants, the key, the counter and a zero nonce. -/
def start (key : Key) (counter : UInt64) : Block :=
  let constants : Vector UInt32 4 := #v[0x61707865, 0x3320646e, 0x79622d32, 0x6b206574]
  let position : Vector UInt32 4 := #v[counter.toUInt32, (counter >>> 32).toUInt32, 0, 0]
  constants ++ key ++ position

/-- The words of one block of the stream. -/
def block (key : Key) (counter : UInt64) : Block :=
  let s := start key counter
  Vector.zipWith (· + ·) (Nat.repeat doubleRound doubleRounds s) s

/-- The bytes of a word, the low one first. -/
def wordBytes (w : UInt32) : List UInt8 :=
  [w.toUInt8, (w >>> 8).toUInt8, (w >>> 16).toUInt8, (w >>> 24).toUInt8]

/-- The bytes of `n` blocks from a counter on. -/
def blocks (key : Key) (counter : UInt64) : (n : Nat) → List UInt8
  | 0 => []
  | n + 1 => (block key counter).toList.flatMap wordBytes ++ blocks key (counter + 1) n

theorem length_blocks (key : Key) (counter : UInt64) (n : Nat) :
    (blocks key counter n).length = 64 * n := by
  induction n generalizing counter with
  | zero => rfl
  | succ n ih =>
    have hblock : ((block key counter).toList.flatMap wordBytes).length = 64 := by
      simp [List.length_flatMap, wordBytes, List.map_const']
    rw [blocks, List.length_append, ih, hblock, Nat.mul_succ, Nat.add_comm]

/-- The first `n` bytes of the stream of a key. -/
def keystream (key : Key) (n : Nat) : Vector UInt8 n :=
  ⟨((blocks key 0 ((n + 63) / 64)).take n).toArray, by
    rw [List.size_toArray, List.length_take, length_blocks]
    omega⟩

/-- The key that a seed expands to. -/
def keyOfSeed (seed : UInt64) : Key :=
  Vector.ofFn fun i => (Pcg.words seed 8).getD i 0

end EightBit.ChaCha

namespace EightBit

/-- The first `n` bytes of the noise of a seed. -/
def noise (seed : UInt64) (n : Nat) : Vector UInt8 n :=
  ChaCha.keystream (ChaCha.keyOfSeed seed) n

end EightBit
