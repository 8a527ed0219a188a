import EightBit.Proofs.Z80.Costs
import EightBit.Proofs.Z80.IndexedOperand
import EightBit.Proofs.Z80.Kept

/-!
# The bytes that a step fetches

A step fetches the bytes of its instruction one after the other from the program counter on. The
decoder fetches the opcodes, with a displacement that stands between them, and the instruction its
displacement and its immediate operands. Each byte is recorded, as far as the record has room.

## Main definitions

* `Board.ahead`, `Board.Fetches`: the bytes from the program counter on, and that some were fetched.
* `Board.StartsIndexEd`: an index prefix that `ED` forgets.

## Main results

* `Board.decoded_of_startsIndexEd`, `Board.fetches_decoded_of_not_startsIndexEd`: the decoder.
* `Board.fetched_execute`: the instruction.
-/

namespace EightBit.Z80

namespace Board

variable {β : Type} [Bus β]

/-- The bytes from the program counter on. -/
def ahead (s : Board β) (n : Nat) : List UInt8 :=
  (List.range n).map fun i => s.load (s.cpu.regs.pc + UInt16.ofNat i)

theorem length_ahead (s : Board β) (n : Nat) : (s.ahead n).length = n := by
  rw [ahead, List.length_map, List.length_range]

@[simp] theorem ahead_one (s : Board β) : s.ahead 1 = [s.nextByte] := by
  simp [ahead, nextByte]

/-- Between two boards a number of bytes was fetched: the program counter is past them, and they
have been recorded, as far as there was room. -/
structure Fetches (s t : Board β) (n : Nat) : Prop where
  bus : t.bus = s.bus
  pc : t.cpu.regs.pc = s.cpu.regs.pc + UInt16.ofNat n
  recorded : t.cpu.fetched = (s.ahead n).foldl InstructionBytes.push s.cpu.fetched

namespace Fetches

variable {s t u : Board β} {m n : Nat}

theorem ahead_add (h : s.Fetches t m) (n : Nat) : s.ahead (m + n) = s.ahead m ++ t.ahead n := by
  rw [ahead, List.range_add, List.map_append, List.map_map]
  congr 1
  refine List.map_congr_left fun i _ => ?_
  rw [Function.comp_apply, load, load, h.bus, h.pc, UInt16.ofNat_add, UInt16.add_assoc]

theorem trans (h : s.Fetches t m) (h' : t.Fetches u n) : s.Fetches u (m + n) where
  bus := h'.bus.trans h.bus
  pc := by rw [h'.pc, h.pc, UInt16.add_assoc, UInt16.ofNat_add]
  recorded := by rw [h'.recorded, h.recorded, h.ahead_add, List.foldl_append]

protected theorem skip (s : Board β) : s.Fetches s.skip 1 where
  bus := rfl
  pc := rfl
  recorded := by rw [ahead_one]; rfl

protected theorem skipOpcode (s : Board β) : s.Fetches s.skipOpcode 1 where
  bus := rfl
  pc := rfl
  recorded := by rw [ahead_one]; rfl

/-- An opcode of another page. -/
theorem opcodeIn (s : Board β) (m : IndexMode) : s.Fetches (s.setMode m).skipOpcode 1 := by
  obtain ⟨hbus, hpc, hrecorded⟩ := Fetches.skipOpcode (s.setMode m)
  exact ⟨hbus, hpc, hrecorded⟩

protected theorem skipWord (s : Board β) : s.Fetches s.skipWord 2 :=
  (Fetches.skip s).trans (Fetches.skip _)

protected theorem skipIndexCb (s : Board β) : s.Fetches s.skipIndexCb 2 := by
  obtain ⟨hbus, hpc, hrecorded⟩ := Fetches.skipWord s
  exact ⟨hbus, hpc, hrecorded⟩

end Fetches

/-- An index prefix in front of `ED`, which forgets it. -/
def StartsIndexEd (s : Board β) : Prop :=
  isIndexPrefix s.nextByte = true ∧ s.load (s.cpu.regs.pc + 1) = 0xED

end Board

/-! ### The decoder -/

namespace Decode

/-- Without a prefix there is no opcode behind a displacement. -/
theorem primary_ne_prefixIndexCb : ∀ op, (primary op).instruction ≠ .prefixIndexCb :=
  forall_byte (by decide)

/-- Behind an index prefix `CB` has a page of its own. -/
theorem index_ne_prefixCb : ∀ op, (index op).instruction ≠ .prefixCb :=
  forall_byte (by decide)

theorem index_eq_prefixEd_iff : ∀ op, (index op).instruction = .prefixEd ↔ op = 0xED :=
  forall_byte (by decide)

end Decode

namespace Decoding

variable {β : Type} [Bus β] {d e : Decoding β}

/-- A look-up fetches the opcode, and the displacement if one stands in front of it. -/
theorem fetches_of_next? (h : d.next? = some e) :
    d.instruction ≠ .prefixIndexCb ∧ d.board.Fetches e.board 1 ∨
      d.instruction = .prefixIndexCb ∧ e.instruction.isIndexed = true ∧
        d.board.Fetches e.board 2 := by
  obtain ⟨hi, -, m, rfl⟩ | ⟨hi, rfl⟩ | ⟨hi, rfl⟩ | ⟨hi, hinstruction, hboard⟩ := next?_cases h
  · refine .inl ⟨?_, .opcodeIn _ m⟩
    intro hcb
    rw [hcb] at hi
    exact absurd hi nofun
  · exact .inl ⟨by rw [hi]; exact nofun, .opcodeIn _ .hl⟩
  · exact .inl ⟨by rw [hi]; exact nofun, .skipOpcode _⟩
  · refine .inr ⟨hi, ?_, ?_⟩
    · rw [hinstruction]
      exact Decode.isIndexed_indexCb _
    · rw [hboard]
      exact .skipIndexCb _

/-- Only an index prefix leads to another prefix. -/
theorem of_next?_of_isPrefix (h : d.next? = some e) (he : e.instruction.isPrefix = true) :
    d.instruction.isIndexPrefix = true ∧
      e.instruction = (Decode.index d.board.nextByte).instruction := by
  obtain ⟨hi, -, m, rfl⟩ | ⟨-, rfl⟩ | ⟨-, rfl⟩ | ⟨-, hi, -⟩ := next?_cases h
  · exact ⟨hi, rfl⟩
  · exact absurd ((Decode.isPrefix_ed _).symm.trans he) Bool.false_ne_true
  · exact absurd ((Decode.isPrefix_cb _).symm.trans he) Bool.false_ne_true
  · rw [hi] at he
    have hindexed := Decode.isIndexed_indexCb d.board.skip.nextByte
    exact absurd ((Instruction.isPrefix_of_isIndexed hindexed).symm.trans he) Bool.false_ne_true

end Decoding

namespace Board

variable {β : Type} [Bus β] {s : Board β}

/-- Behind an index prefix and `ED` the search ends with the third opcode. -/
theorem decoded_of_startsIndexEd (h : s.StartsIndexEd) :
    s.decoded.instruction = (Decode.ed (s.load (s.cpu.regs.pc + 2))).instruction ∧
      s.Fetches s.decoded.board 3 := by
  obtain ⟨hbyte, hed⟩ := h
  have hfirst : s.decodeFirst.instruction.isIndexPrefix = true :=
    (Decode.isIndexPrefix_primary _).trans hbyte
  have hsecond : s.decodeFirst.board.nextByte = 0xED := hed
  obtain ⟨e, he⟩ : ∃ e, s.decodeFirst.next? = some e := by
    refine Option.ne_none_iff_exists'.1 fun hnone => ?_
    have hagain := (Decoding.next?_eq_none_iff_of_isIndexPrefix hfirst).1 hnone
    rw [hsecond] at hagain
    exact absurd hagain (by decide)
  have hinstruction : e.instruction = .prefixEd := by
    obtain ⟨-, -, m, rfl⟩ | ⟨hi, -⟩ | ⟨hi, -⟩ | ⟨hi, -⟩ := Decoding.next?_cases he
    · exact (Decode.index_eq_prefixEd_iff _).2 hsecond
    all_goals
      rw [hi] at hfirst
      exact absurd hfirst nofun
  have hthird : e.next? = some (e.lookUp Decode.ed (e.board.setMode .hl)) := by
    rw [Decoding.next?, hinstruction]
  have hdecoded : s.decoded = e.lookUp Decode.ed (e.board.setMode .hl) := by
    rw [decoded, maxLookUps, Decoding.resolve, he]
    dsimp only
    rw [Decoding.resolve, hthird]
    rfl
  obtain ⟨-, hopcodes⟩ | ⟨hcb, -⟩ := Decoding.fetches_of_next? he
  · have hboth : s.Fetches e.board 2 := (Fetches.skipOpcode s).trans hopcodes
    rw [hdecoded]
    refine ⟨?_, hboth.trans (.opcodeIn _ .hl)⟩
    rw [Decoding.lookUp, nextByte, load, setMode, hboth.bus, hboth.pc]
    rfl
  · rw [hcb] at hfirst
    exact absurd hfirst nofun

/-- Otherwise it ends with the second at the latest, unless that is `CB` behind an index prefix. -/
theorem fetches_decoded_of_not_startsIndexEd (h : ¬s.StartsIndexEd) :
    ∃ n, s.Fetches s.decoded.board n ∧
      (0 < n ∧ n ≤ 2 ∨ n = 4 ∧ s.decoded.instruction.isIndexed = true) := by
  have hfirst : s.Fetches s.decodeFirst.board 1 := .skipOpcode s
  rw [decoded, maxLookUps, Decoding.resolve]
  split
  next e he =>
    obtain ⟨-, hsecond⟩ | ⟨hcb, -⟩ := Decoding.fetches_of_next? he
    · rw [Decoding.resolve]
      split
      next f hf =>
        -- Of the prefixes behind an index prefix `ED` is excluded.
        obtain ⟨hthird, -⟩ | ⟨-, hindexed, hthird⟩ := Decoding.fetches_of_next? hf
        · refine absurd ?_ h
          have hpage (hi : e.instruction.isPrefix = true) := Decoding.of_next?_of_isPrefix he hi
          obtain ⟨hi, -⟩ | ⟨hi, -⟩ | ⟨hi, -⟩ | ⟨hi, -⟩ := Decoding.next?_cases hf
          · exact absurd (hi.symm.trans (Decoding.isIndexPrefix_of_next? he)) (by decide)
          · obtain ⟨hbyte, hindex⟩ := hpage (congrArg Instruction.isPrefix hi)
            exact ⟨(Decode.isIndexPrefix_primary _).symm.trans hbyte,
              (Decode.index_eq_prefixEd_iff _).1 (hindex.symm.trans hi)⟩
          · obtain ⟨-, hindex⟩ := hpage (congrArg Instruction.isPrefix hi)
            exact absurd (hindex.symm.trans hi) (Decode.index_ne_prefixCb _)
          · exact absurd hi hthird
        · exact ⟨4, (hfirst.trans hsecond).trans hthird, .inr ⟨rfl, hindexed⟩⟩
      next => exact ⟨2, hfirst.trans hsecond, .inl ⟨by decide, by decide⟩⟩
    · exact absurd hcb (Decode.primary_ne_prefixIndexCb _)
  next => exact ⟨1, hfirst, .inl ⟨by decide, by decide⟩⟩

/-! ### The instruction -/

section

variable (s)

open Instruction (displacementBytes)

protected theorem Fetches.refl : s.Fetches s 0 where
  bus := rfl
  pc := (UInt16.add_zero _).symm
  recorded := rfl

/-- An operand that has not been aimed at yet takes its displacement. -/
protected theorem Fetches.aim (h : s.cpu.indexAddress = none) (x : Reg8) :
    s.Fetches (s.aim x) (displacementBytes s.cpu.mode x.isIndirect) := by
  rw [Board.aim, h, displacementBytes, Option.isNone_none, Bool.and_true]
  split
  · obtain ⟨hbus, hpc, hrecorded⟩ := Fetches.skip s
    exact ⟨hbus, hpc, hrecorded⟩
  · exact .refl s

/-- Of two operands one is aimed at. -/
theorem aim_aim (h : s.cpu.indexAddress = none) (dst src : Reg8) :
    (s.aim dst).aim src = s.aim (if dst.isIndirect then dst else src) := by
  by_cases hdst : dst.isIndirect = true
  · rw [if_pos hdst]
    by_cases hm : s.cpu.mode = .hl <;> simp [aim, h, hdst, hm]
  · have haim : s.aim dst = s := by simp [aim, hdst]
    rw [haim, if_neg hdst]

protected theorem Fetches.aim_aim (h : s.cpu.indexAddress = none) (dst src : Reg8) :
    s.Fetches ((s.aim dst).aim src)
      (displacementBytes s.cpu.mode (dst.isIndirect || src.isIndirect)) := by
  have hwhich : (if dst.isIndirect then dst else src).isIndirect =
      (dst.isIndirect || src.isIndirect) := by
    cases hdst : dst.isIndirect
    · rfl
    · exact hdst
  rw [s.aim_aim h, ← hwhich]
  exact .aim s h _

/-! #### What the parts of an instruction leave alone of the record -/

theorem fetched_setOperandIn (m : IndexMode) (x : Reg8) (v : UInt8) :
    (s.setOperandIn m x v).cpu.fetched = s.cpu.fetched := by
  cases x <;> rfl

omit [Bus β] in
theorem fetched_chargeIf (taken : Bool) (n : Nat) :
    (s.chargeIf taken n).cpu.fetched = s.cpu.fetched := by
  cases taken <;> rfl

theorem fetched_jumpRelative (taken : Bool) :
    (s.jumpRelative taken).cpu.fetched = s.skip.cpu.fetched := by
  cases taken <;> rfl

theorem fetched_jumpAbsolute (taken : Bool) :
    (s.jumpAbsolute taken).cpu.fetched = s.skipWord.cpu.fetched := by
  cases taken <;> rfl

theorem fetched_callIf (taken : Bool) :
    (s.callIf taken).cpu.fetched = s.skipWord.cpu.fetched := by
  cases taken <;> rfl

theorem fetched_returnIf (taken : Bool) : (s.returnIf taken).cpu.fetched = s.cpu.fetched := by
  cases taken <;> rfl

theorem fetched_update (x : Reg8) (f : Registers → UInt8 → UInt8)
    (g : Registers → UInt8 → Registers) :
    (s.update x f g).cpu.fetched = (s.aim x).cpu.fetched :=
  fetched_setOperandIn _ _ x _

theorem fetched_updateIndexed (copy : Option Reg8) (f : Registers → UInt8 → UInt8)
    (g : Registers → UInt8 → Registers) :
    (s.updateIndexed copy f g).cpu.fetched = s.cpu.fetched := by
  cases copy with
  | none => rfl
  | some x => exact fetched_setOperandIn _ _ x _

theorem fetched_inputByC (dst : Option Reg8) :
    (s.inputByC dst).cpu.fetched = s.cpu.fetched := by
  cases dst with
  | none => rfl
  | some x => exact fetched_setOperandIn _ _ x _

theorem fetched_block (op : BlockOp) (increment repeats : Bool) :
    (s.block op increment repeats).cpu.fetched = s.cpu.fetched := by
  have hbyte : (s.blockByte op increment).2.cpu.fetched = s.cpu.fetched := by cases op <;> rfl
  rw [block_eq]
  dsimp only
  split <;> exact hbyte

end

/-- An instruction fetches its displacement and its immediate operands. -/
theorem fetched_execute {i : Instruction} (h : i.isIndexed = true ∨ s.cpu.indexAddress = none) :
    (s.execute i).cpu.fetched =
      (s.ahead (i.operandBytes s.cpu.mode)).foldl InstructionBytes.push s.cpu.fetched := by
  have haim (hi : i.isIndexed = false) (x : Reg8) :=
    Fetches.aim s (h.resolve_left (Bool.eq_false_iff.1 hi)) x
  have hbyte := (Fetches.skip s).recorded
  have hword := (Fetches.skipWord s).recorded
  cases i with
  -- Operands that may be in memory
  | load dst src =>
    have haims := Fetches.aim_aim s (h.resolve_left nofun) dst src
    exact (fetched_setOperandIn _ _ dst _).trans haims.recorded
  | loadImm x =>
    exact (fetched_setOperandIn _ _ x _).trans ((haim rfl x).trans (.skip _)).recorded
  | inc8 x | dec8 x | shift _ x | res _ x | set _ x =>
    exact (s.fetched_update x _ _).trans (haim rfl x).recorded
  | alu _ x | bit _ x => exact (haim rfl x).recorded
  | indexShift _ copy | indexRes _ copy | indexSet _ copy => exact s.fetched_updateIndexed copy _ _
  -- Transfers of control
  | djnz => exact ((fetched_chargeIf _ _ _).trans (fetched_jumpRelative _ _)).trans hbyte
  | jr => exact (s.fetched_jumpRelative _).trans hbyte
  | jrIf _ => exact ((fetched_chargeIf _ _ _).trans (s.fetched_jumpRelative _)).trans hbyte
  | jp => exact (s.fetched_jumpAbsolute _).trans hword
  | jpIf _ => exact ((fetched_chargeIf _ _ _).trans (s.fetched_jumpAbsolute _)).trans hword
  | call => exact (s.fetched_callIf _).trans hword
  | callIf _ => exact ((fetched_chargeIf _ _ _).trans (s.fetched_callIf _)).trans hword
  | retIf _ => exact (fetched_chargeIf _ _ _).trans (s.fetched_returnIf _)
  -- Immediate operands
  | aluImm _ | outImm | inImm => exact hbyte
  | loadPairImm _ | storeAbs | loadAbs => exact hword
  | storeHlAbs | loadHlAbs | storePairAbs _ | loadPairAbs _ => exact hword
  -- No operands that are fetched
  | inC dst => exact s.fetched_inputByC dst
  | block op increment repeats => exact s.fetched_block op increment repeats
  | _ => rfl

end Board

end EightBit.Z80
