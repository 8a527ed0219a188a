import EightBit.Z80.Cpu
import EightBit.Z80.Decode

/-!
# Resolving prefixes

The first opcode of an instruction may be a prefix, which sends the decoder to another page of
opcodes, where it may find another prefix. A decoding is a state of this search: what has been
found so far, what it costs, and the board after the bytes fetched for it.

An index prefix that is followed by another one is an instruction of its own, which does nothing:
only the last of a run applies. `ED` forgets an index prefix in front of it. After an index prefix
and `CB` come a displacement and the opcode, neither of which counts as an opcode fetch.

## Main definitions

* `Decoding`, `Board.decodeFirst`: a state of the search, and the first one.
* `Decoding.next?`: one look-up in another page, if the instruction found is a prefix.
* `Board.decoded`: the end of the search, which takes at most two look-ups.
-/

namespace EightBit.Z80

/-- A state of the search for the instruction. -/
structure Decoding (β : Type) where
  /-- The cost of the opcodes looked up so far. -/
  cycles : Nat
  /-- What the last look-up found. -/
  instruction : Instruction
  board : Board β

/-- Whether a byte is an index prefix. -/
@[inline] def isIndexPrefix (b : UInt8) : Bool :=
  b == 0xDD || b == 0xFD

namespace Board

variable {β : Type} [Bus β]

/-- Begins an instruction at the program counter. -/
@[inline] def begin (s : Board β) : Board β :=
  { s with
    cpu := { s.cpu with
      instructionAddress := s.cpu.regs.pc
      fetched := s.cpu.fetched.clear
      mode := .hl
      indexAddress := none } }

/-- Says which register stands for `HL`. -/
@[inline] def setMode (s : Board β) (m : IndexMode) : Board β :=
  { s with cpu := { s.cpu with mode := m } }

/-- The first opcode of an instruction. -/
def decodeFirst (s : Board β) : Decoding β :=
  let e := Decode.primary s.nextByte
  ⟨e.cycles, e.instruction, s.skipOpcode⟩

/-- The displacement and the opcode after an index prefix and `CB`. -/
def skipIndexCb (s : Board β) : Board β :=
  let a := s.indexValue + displacement s.nextByte
  let s := s.skip.skip
  { s with cpu := { s.cpu with indexAddress := some a } }

end Board

namespace Decoding

variable {β : Type} [Bus β]

/-- Looks the opcode at the program counter up in a page. -/
def lookUp (d : Decoding β) (page : UInt8 → Entry) (s : Board β) : Decoding β :=
  let e := page s.nextByte
  ⟨d.cycles + e.cycles, e.instruction, s.skipOpcode⟩

/-- Follows an index prefix, unless another one comes next. -/
def followIndex (d : Decoding β) (m : IndexMode) : Option (Decoding β) :=
  if isIndexPrefix d.board.nextByte then none
  else some (d.lookUp Decode.index (d.board.setMode m))

/-- One look-up in another page, if the instruction found is a prefix that leads to one. -/
def next? (d : Decoding β) : Option (Decoding β) :=
  match d.instruction with
  | .prefixIx => d.followIndex .ix
  | .prefixIy => d.followIndex .iy
  | .prefixEd => some (d.lookUp Decode.ed (d.board.setMode .hl))
  | .prefixCb => some (d.lookUp Decode.cb d.board)
  | .prefixIndexCb =>
    let e := Decode.indexCb d.board.skip.nextByte
    some ⟨d.cycles + e.cycles, e.instruction, d.board.skipIndexCb⟩
  | _ => none

/-- Follows prefixes for at most `n` look-ups. -/
def resolve : (n : Nat) → Decoding β → Decoding β
  | 0, d => d
  | n + 1, d =>
    match d.next? with
    | some e => e.resolve n
    | none => d

end Decoding

/-- The most look-ups beyond the first that an instruction takes: an index prefix, and `ED` or `CB`
after it. -/
def maxLookUps : Nat := 2

/-- The instruction at the program counter, and the board after its opcode bytes. -/
def Board.decoded {β : Type} [Bus β] (s : Board β) : Decoding β :=
  s.decodeFirst.resolve maxLookUps

end EightBit.Z80
