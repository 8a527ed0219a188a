import EightBit.Text.Hex

/-!
# Entries of an instruction trace

An entry describes one executed instruction: where it began, the bytes fetched while it ran, and
its mnemonic. The bytes are kept up to the longest encoding of either processor.

## Main definitions

* `InstructionBytes`: at most four fetched bytes in a buffer, with `push` dropping what comes after
  and `clear` beginning anew.
* `TraceEntry`, `TraceEntry.line`: an executed instruction and its line in a listing.
-/

namespace EightBit

/-- The longest instruction encoding that is recorded, in bytes. -/
def maxInstructionBytes : Nat := 4

/-- The bytes fetched while executing one instruction, in order. They stand at the front of a buffer
that serves for every instruction: behind them may stand bytes of the instructions before. -/
structure InstructionBytes where
  buffer : Vector UInt8 maxInstructionBytes
  /-- The number of bytes kept. -/
  length : Nat
  /-- No more bytes are kept than the longest encoding has. -/
  length_le : length ≤ maxInstructionBytes
  deriving DecidableEq

namespace InstructionBytes

/-- Nothing fetched yet. -/
def empty : InstructionBytes where
  buffer := .replicate maxInstructionBytes 0
  length := 0
  length_le := Nat.zero_le _

instance : Inhabited InstructionBytes := ⟨empty⟩

/-- Keeps no byte any more. The buffer stays as it is. -/
def clear (bs : InstructionBytes) : InstructionBytes :=
  { bs with length := 0, length_le := Nat.zero_le _ }

/-- Appends a fetched byte; bytes past the fourth are dropped. -/
def push (bs : InstructionBytes) (b : UInt8) : InstructionBytes :=
  if h : bs.length < maxInstructionBytes then
    { buffer := bs.buffer.set bs.length b h, length := bs.length + 1, length_le := h }
  else bs

/-- The bytes kept, the first fetched at the head. -/
def toList (bs : InstructionBytes) : List UInt8 :=
  bs.buffer.toList.take bs.length

/-- Whether no byte is kept. -/
def isEmpty (bs : InstructionBytes) : Bool :=
  bs.length == 0

/-- The bytes as they stand in a listing. -/
def text (bs : InstructionBytes) : String :=
  Hex.spaced bs.toList

@[simp] theorem length_toList (bs : InstructionBytes) : bs.toList.length = bs.length := by
  rw [toList, List.length_take, Vector.length_toList, Nat.min_eq_left bs.length_le]

@[simp] theorem toList_empty : empty.toList = [] := rfl

@[simp] theorem toList_clear (bs : InstructionBytes) : bs.clear.toList = [] := rfl

theorem toList_push (bs : InstructionBytes) (b : UInt8) :
    (bs.push b).toList = (bs.toList ++ [b]).take maxInstructionBytes := by
  unfold push
  split
  next h =>
    have hset : bs.length < (bs.buffer.toList.set bs.length b).length := by
      rwa [List.length_set, Vector.length_toList]
    have hroom : (bs.toList ++ [b]).length ≤ maxInstructionBytes := by
      rwa [List.length_append, length_toList]
    rw [List.take_of_length_le hroom, toList, Vector.toList_set,
      List.take_succ_eq_append_getElem hset, List.getElem_set_self,
      List.take_set_of_le (Nat.le_refl _), toList]
  next h =>
    have hfull : maxInstructionBytes ≤ bs.toList.length := by
      rw [length_toList]
      exact Nat.le_of_not_lt h
    have hall : bs.toList.length ≤ maxInstructionBytes := by
      rw [length_toList]
      exact bs.length_le
    rw [List.take_append_of_le_length hfull, List.take_of_length_le hall]

end InstructionBytes

/-- One executed instruction. -/
structure TraceEntry where
  /-- The address of the first opcode byte. -/
  address : UInt16
  /-- The bytes fetched for the instruction. -/
  bytes : InstructionBytes
  /-- The instruction as an assembler writes it. -/
  mnemonic : String
  deriving DecidableEq

namespace TraceEntry

/-- The width of the column of bytes in a listing. -/
def bytesColumn : Nat := 12

/-- The line of an entry: the address, two blanks, the bytes padded to their column, a blank and the
mnemonic. -/
def line (e : TraceEntry) : String :=
  let bytes := e.bytes.text
  Hex.word e.address ++ "  " ++ bytes.pushn ' ' (bytesColumn - bytes.length) ++ " " ++ e.mnemonic

end TraceEntry

end EightBit
