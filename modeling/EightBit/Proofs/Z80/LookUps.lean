import EightBit.Proofs.Z80.Refresh

/-!
# How the search for an instruction ends

The decoder follows prefixes from page to page without counting them. It ends nevertheless, because
each page leads to fewer pages than the one before: an index prefix to two of them at most, and the
other prefixes to one. What it ends with is not a prefix, unless it is an index prefix in front of
another one. The first two bytes tell which register stands for `HL` then, and an instruction with
an indexed operand is only found together with the address of the operand.

## Main definitions

* `Instruction.lookUpsAhead`: the look-ups to which an instruction may lead.
* `Decoding.LooksUp`: a number of look-ups, one after the other.
* `prefixMode`: the index mode of an instruction that begins with two bytes.
* `Board.ResolvesPrefixes`: how the search ends.

## Main results

* `Decoding.lookUpsAhead_lt_of_next?`, `Decoding.LooksUp.lookUpsAhead_le`: the search uses up what
  is ahead, in one look-up and in many.
* `Decoding.next?_resolve`: it ends.
* `Board.found_cases`, `Board.mode_found`: what is indexed, and with which register.
* `Board.resolvesPrefixes`: every search.
-/

namespace EightBit.Z80

/-! ### The look-ups ahead -/

/-- The most look-ups to which an instruction leads. -/
def Instruction.lookUpsAhead : Instruction → Nat
  | prefixIx | prefixIy => 2
  | prefixCb | prefixEd | prefixIndexCb => 1
  | _ => 0

theorem Instruction.lookUpsAhead_of_isIndexPrefix {i : Instruction} (h : i.isIndexPrefix = true) :
    i.lookUpsAhead = 2 := by
  cases i <;> first | rfl | exact absurd h nofun

theorem Instruction.lookUpsAhead_of_not_isPrefix {i : Instruction} (h : i.isPrefix = false) :
    i.lookUpsAhead = 0 := by
  cases i <;> first | rfl | exact absurd h nofun

namespace Decode

theorem lookUpsAhead_primary : ∀ op, (primary op).instruction.lookUpsAhead ≤ maxLookUps :=
  forall_byte (by decide)

theorem lookUpsAhead_index :
    ∀ op, isIndexPrefix op = false → (index op).instruction.lookUpsAhead ≤ 1 :=
  forall_byte (by decide)

end Decode

namespace Decoding

variable {β : Type} [Bus β] {d e f : Decoding β} {k n : Nat}

/-- Each look-up leaves fewer ahead. -/
theorem lookUpsAhead_lt_of_next? (h : d.next? = some e) :
    e.instruction.lookUpsAhead < d.instruction.lookUpsAhead := by
  obtain ⟨hi, hnext, m, rfl⟩ | ⟨hi, rfl⟩ | ⟨hi, rfl⟩ | ⟨hi, he, -⟩ := next?_cases h
  · rw [Instruction.lookUpsAhead_of_isIndexPrefix hi]
    exact Nat.lt_succ_of_le (Decode.lookUpsAhead_index _ hnext)
  · have hnone := Instruction.lookUpsAhead_of_not_isPrefix (Decode.isPrefix_ed d.board.nextByte)
    rw [hi]
    exact Nat.lt_of_le_of_lt (Nat.le_of_eq hnone) Nat.zero_lt_one
  · have hnone := Instruction.lookUpsAhead_of_not_isPrefix (Decode.isPrefix_cb d.board.nextByte)
    rw [hi]
    exact Nat.lt_of_le_of_lt (Nat.le_of_eq hnone) Nat.zero_lt_one
  · have hindexed := Decode.isIndexed_indexCb d.board.skip.nextByte
    rw [hi, he,
      Instruction.lookUpsAhead_of_not_isPrefix (Instruction.isPrefix_of_isIndexed hindexed)]
    exact Nat.zero_lt_one

/-- With nothing ahead, the search is at its end. -/
theorem next?_eq_none_of_lookUpsAhead (h : d.instruction.lookUpsAhead = 0) : d.next? = none := by
  refine Option.eq_none_iff_forall_ne_some.2 fun e he => ?_
  have hlt := lookUpsAhead_lt_of_next? he
  rw [h] at hlt
  exact Nat.not_lt_zero _ hlt

/-- A number of look-ups leads from one state of the search to another. -/
inductive LooksUp : Nat → Decoding β → Decoding β → Prop
  | refl (d : Decoding β) : LooksUp 0 d d
  | head {n : Nat} {d e f : Decoding β} (h : d.next? = some e) (hrest : LooksUp n e f) :
    LooksUp (n + 1) d f

/-- Look-ups use up what is ahead. -/
theorem LooksUp.lookUpsAhead_le (h : LooksUp n d e) :
    e.instruction.lookUpsAhead + n ≤ d.instruction.lookUpsAhead := by
  induction h with
  | refl d => exact Nat.le_refl _
  | head h _ ih => exact Nat.lt_of_le_of_lt ih (lookUpsAhead_lt_of_next? h)

/-- Once look-ups have led to an end, allowing more of them changes nothing. -/
theorem LooksUp.resolve_eq (h : LooksUp k d e) (hend : e.next? = none) (hk : k ≤ n) :
    d.resolve n = e := by
  induction h generalizing n with
  | refl d =>
    cases n with
    | zero => rfl
    | succ n => rw [resolve, hend]
  | head h _ ih =>
    cases n with
    | zero => exact absurd hk (Nat.not_succ_le_zero _)
    | succ n =>
      rw [resolve, h]
      exact ih hend (Nat.le_of_succ_le_succ hk)

/-- A bounded search is a number of look-ups within the bound. -/
theorem exists_looksUp_resolve (d : Decoding β) (n : Nat) :
    ∃ k ≤ n, LooksUp k d (d.resolve n) := by
  induction n generalizing d with
  | zero => exact ⟨0, Nat.le_refl 0, .refl d⟩
  | succ n ih =>
    rw [resolve]
    split
    next e he =>
      obtain ⟨k, hk, hups⟩ := ih e
      exact ⟨k + 1, Nat.succ_le_succ hk, .head he hups⟩
    next => exact ⟨0, Nat.zero_le _, .refl d⟩

/-- A search that may take as many look-ups as are ahead comes to its end. -/
theorem next?_resolve (h : d.instruction.lookUpsAhead ≤ n) : (d.resolve n).next? = none := by
  induction n generalizing d with
  | zero => exact next?_eq_none_of_lookUpsAhead (Nat.le_zero.1 h)
  | succ n ih =>
    rw [resolve]
    split
    next e he => exact ih (Nat.le_of_lt_succ (Nat.lt_of_lt_of_le (lookUpsAhead_lt_of_next? he) h))
    next hnone => exact hnone

/-- These prefixes are always followed. -/
theorem ne_of_next?_eq_none (h : d.next? = none) :
    d.instruction ≠ .prefixCb ∧ d.instruction ≠ .prefixEd ∧ d.instruction ≠ .prefixIndexCb := by
  refine ⟨?_, ?_, ?_⟩ <;>
  · intro hi
    rw [next?, hi] at h
    exact Option.some_ne_none _ h

end Decoding

/-! ### The index mode -/

/-- The index mode of an instruction that begins with two bytes: an index prefix has no effect in
front of another one or of `ED`. -/
def prefixMode (first second : UInt8) : IndexMode :=
  if isIndexPrefix second ∨ second = 0xED then .hl
  else if first = 0xDD then .ix
  else if first = 0xFD then .iy
  else .hl

section

variable {first second : UInt8}

theorem prefixMode_of_not_isIndexPrefix (h : isIndexPrefix first = false) :
    prefixMode first second = .hl := by
  have hne := mt (isIndexPrefix_iff first).2 (Bool.eq_false_iff.1 h)
  rw [prefixMode, if_neg fun hdd => hne (.inl hdd), if_neg fun hfd => hne (.inr hfd), ite_self]

theorem prefixMode_of_isPrefix {m : IndexMode} (hm : m.IsPrefix first)
    (h : isIndexPrefix second = false) (hed : second ≠ 0xED) : prefixMode first second = m := by
  rw [prefixMode, if_neg (not_or.2 ⟨Bool.eq_false_iff.1 h, hed⟩)]
  obtain ⟨rfl, rfl⟩ | ⟨rfl, rfl⟩ := hm <;> rfl

/-- An index mode is that of a prefix which takes effect. -/
theorem isPrefix_of_prefixMode {m : IndexMode} (h : prefixMode first second = m) (hm : m ≠ .hl) :
    m.IsPrefix first ∧ isIndexPrefix second = false ∧ second ≠ 0xED := by
  subst h
  rw [prefixMode] at hm ⊢
  split at hm
  next => exact absurd rfl hm
  next hsecond =>
    obtain ⟨hindex, hed⟩ := not_or.1 hsecond
    refine ⟨?_, Bool.eq_false_iff.2 hindex, hed⟩
    rw [if_neg hsecond]
    grind [IndexMode.IsPrefix]

end

namespace Decoding

variable {β : Type} [Bus β] {s : Board β}

/-- Behind an index prefix and an opcode that is not one, the search ends with the opcode behind
`ED`, which forgets the prefix; with the opcode behind `CB` and a displacement; or at once. -/
theorem resolve_index_cases (d : Decoding β) (m : IndexMode)
    (h : isIndexPrefix s.nextByte = false) :
    let e := (d.lookUp Decode.index (s.setMode m)).resolve 1
    s.nextByte = 0xED ∧ e.board.cpu.mode = .hl ∧ e.instruction.isIndexed = false ∨
      s.nextByte = 0xCB ∧ e.board = (s.setMode m).skipOpcode.skipIndexCb ∨
      s.nextByte ≠ 0xED ∧ e.board.cpu.mode = m ∧ e.instruction.isIndexed = false := by
  obtain ⟨hop, hi⟩ | ⟨hop, hi⟩ | ⟨hop, hi⟩ := Decode.index_of_not_isIndexPrefix _ h
  · have hfound : (d.lookUp Decode.index (s.setMode m)).instruction = .prefixEd := hi
    rw [resolve, next?, hfound]
    obtain ⟨-, -, hed, -⟩ := Decode.isIndexed_pages (s.setMode m).skipOpcode.nextByte
    exact .inl ⟨hop, rfl, hed⟩
  · have hfound : (d.lookUp Decode.index (s.setMode m)).instruction = .prefixIndexCb := hi
    rw [resolve, next?, hfound]
    exact .inr (.inl ⟨hop, rfl⟩)
  · obtain ⟨-, -, -, hindex⟩ := Decode.isIndexed_pages s.nextByte
    have hend := resolve_of_not_prefix (n := 1) (d := d.lookUp Decode.index (s.setMode m)) hi
    rw [hend]
    exact .inr (.inr ⟨hop, rfl, hindex⟩)

end Decoding

namespace Board

variable {β : Type} [Bus β] {s : Board β}

/-- Without an index prefix that takes effect nothing is indexed. -/
theorem found_of_not_isIndexPrefix (h : isIndexPrefix s.nextByte = false) :
    s.found.board.cpu.mode = .hl ∧ s.found.instruction.isIndexed = false := by
  by_cases hcb : s.nextByte = 0xCB
  · rw [found, decoded_of_cb (s := s.started.begin) hcb]
    obtain ⟨-, hpage, -⟩ := Decode.isIndexed_pages s.started.begin.skipOpcode.nextByte
    exact ⟨rfl, hpage⟩
  by_cases hed : s.nextByte = 0xED
  · rw [found, decoded_of_ed (s := s.started.begin) hed]
    obtain ⟨-, -, hpage, -⟩ := Decode.isIndexed_pages s.started.begin.skipOpcode.nextByte
    exact ⟨rfl, hpage⟩
  · have hplain := mt (isIndexPrefix_iff _).2 (Bool.eq_false_iff.1 h)
    have hnot : s.nextByte ∉ prefixBytes := by simp_all [prefixBytes]
    rw [found, decoded_plain (s := s.started.begin) hnot]
    exact ⟨rfl, (Decode.isIndexed_pages _).1⟩

theorem found_of_startsPrefixRun (h : s.StartsPrefixRun) :
    s.found.board.cpu.mode = .hl ∧ s.found.instruction.isIndexed = false := by
  rw [found, decoded_of_startsPrefixRun (s := s.started.begin) h]
  exact ⟨rfl, (Decode.isIndexed_pages _).1⟩

/-- An index prefix that is followed leads to the opcode behind it. -/
theorem found_of_isPrefix {m : IndexMode} (hm : m.IsPrefix s.nextByte)
    (h : isIndexPrefix (s.load (s.cpu.regs.pc + 1)) = false) :
    s.found = (s.started.begin.decodeFirst.lookUp Decode.index
      (s.started.begin.skipOpcode.setMode m)).resolve 1 := by
  rw [found, decoded, maxLookUps, Decoding.resolve, s.started.next?_prefixed hm h]

/-- Either no register stands in for `HL`, and nothing is indexed, or an index prefix takes effect,
and an operand that the decoder aims at has the address that its displacement gives. -/
theorem found_cases (s : Board β) :
    s.found.board.cpu.mode = .hl ∧ s.found.instruction.isIndexed = false ∧
        prefixMode s.nextByte (s.load (s.cpu.regs.pc + 1)) = .hl ∨
      ∃ m : IndexMode, m.IsPrefix s.nextByte ∧ s.found.board.cpu.mode = m ∧
        prefixMode s.nextByte (s.load (s.cpu.regs.pc + 1)) = m ∧
        (s.found.instruction.isIndexed = true → s.found.board.cpu.indexAddress =
          some (s.indexedAddress m (s.load (s.cpu.regs.pc + 2)))) := by
  rcases Bool.eq_false_or_eq_true (isIndexPrefix s.nextByte) with hfirst | hfirst
  · rcases Bool.eq_false_or_eq_true (isIndexPrefix (s.load (s.cpu.regs.pc + 1))) with hnext | hnext
    · obtain ⟨hmode, hindexed⟩ := found_of_startsPrefixRun ⟨hfirst, hnext⟩
      exact .inl ⟨hmode, hindexed, if_pos (.inl hnext)⟩
    · obtain ⟨m, hm⟩ := IndexMode.exists_isPrefix hfirst
      have hprefix := prefixMode_of_isPrefix hm hnext
      rw [found_of_isPrefix hm hnext]
      obtain ⟨hop, hmode, hindexed⟩ | ⟨hop, hboard⟩ | ⟨hop, hmode, hindexed⟩ :=
        Decoding.resolve_index_cases s.started.begin.decodeFirst m
          (s := s.started.begin.skipOpcode) hnext
      · exact .inl ⟨hmode, hindexed, if_pos (.inr hop)⟩
      · refine .inr ⟨m, hm, ?_, hprefix (ne_of_eq_of_ne hop (by decide)), fun _ => ?_⟩ <;>
          rw [hboard]
        · rfl
        · have hpast : (s.started.begin.skipOpcode.setMode m).skipOpcode = s.pastOpcodes m := rfl
          rw [hpast, pastOpcodes_eq]
          cases m <;> rfl
      · refine .inr ⟨m, hm, hmode, hprefix hop, fun hyes => ?_⟩
        exact absurd (hindexed.symm.trans hyes) Bool.false_ne_true
  · obtain ⟨hmode, hindexed⟩ := found_of_not_isIndexPrefix hfirst
    exact .inl ⟨hmode, hindexed, prefixMode_of_not_isIndexPrefix hfirst⟩

/-- The first two bytes tell the index mode of the instruction. -/
theorem mode_found (s : Board β) :
    s.found.board.cpu.mode = prefixMode s.nextByte (s.load (s.cpu.regs.pc + 1)) := by
  obtain ⟨hmode, -, hprefix⟩ | ⟨m, -, hmode, hprefix, -⟩ := s.found_cases <;>
    rw [hmode, hprefix]

/-- An instruction whose operand the decoder aims at is found behind an index prefix, with the
address of the operand. -/
theorem indexAddress_found (h : s.found.instruction.isIndexed = true) :
    ∃ m : IndexMode, m.IsPrefix s.nextByte ∧ s.found.board.cpu.mode = m ∧
      s.found.board.cpu.indexAddress =
        some (s.indexedAddress m (s.load (s.cpu.regs.pc + 2))) := by
  obtain ⟨-, hindexed, -⟩ | ⟨m, hm, hmode, -, haddress⟩ := s.found_cases
  · exact absurd (hindexed.symm.trans h) Bool.false_ne_true
  · exact ⟨m, hm, hmode, haddress h⟩

/-! ### The search -/

/-- How the search for an instruction ends. -/
structure ResolvesPrefixes (s : Board β) : Prop where
  /-- It comes to an end, after at most two look-ups beyond the first. -/
  ends : ∃ n ≤ 2, Decoding.LooksUp n s.started.begin.decodeFirst s.found ∧ s.found.next? = none
  /-- There is no longer one. -/
  bounded : ∀ n d, Decoding.LooksUp n s.started.begin.decodeFirst d → n ≤ 2
  /-- It would end alike if more look-ups were allowed. -/
  unbounded : ∀ n, 2 ≤ n → s.started.begin.decodeFirst.resolve n = s.found
  /-- What it ends with is executed. -/
  handsOver : s.cpu.halted = false → s.step = s.found.execute
  /-- These prefixes are not. -/
  resolved : s.found.instruction ≠ .prefixCb ∧ s.found.instruction ≠ .prefixEd ∧
    s.found.instruction ≠ .prefixIndexCb
  /-- An index prefix is only if another one comes next. -/
  indexPrefix : s.found.instruction = .prefixIx ∨ s.found.instruction = .prefixIy →
    s.found.board.nextByte = 0xDD ∨ s.found.board.nextByte = 0xFD
  /-- An indexed operand has been aimed at with an index register. -/
  indexed : s.found.instruction.isIndexed = true →
    (s.found.board.cpu.mode = .ix ∨ s.found.board.cpu.mode = .iy) ∧
      s.found.board.cpu.indexAddress =
        some (s.indexedAddress s.found.board.cpu.mode (s.load (s.cpu.regs.pc + 2)))

/-- **Resolving prefixes.** Whatever the bytes at the program counter are, the search for the
instruction takes at most two look-ups beyond the first, and hands over an instruction that can be
executed. -/
theorem resolvesPrefixes (s : Board β) : s.ResolvesPrefixes := by
  have hahead : s.started.begin.decodeFirst.instruction.lookUpsAhead ≤ maxLookUps :=
    Decode.lookUpsAhead_primary _
  have hend : s.found.next? = none := Decoding.next?_resolve hahead
  obtain ⟨n, hn, hups⟩ := s.started.begin.decodeFirst.exists_looksUp_resolve maxLookUps
  refine ⟨⟨n, hn, hups, hend⟩, ?_, ?_, step_eq_execute, Decoding.ne_of_next?_eq_none hend, ?_, ?_⟩
  · intro n d h
    exact Nat.le_trans (Nat.le_add_left _ _) (Nat.le_trans h.lookUpsAhead_le hahead)
  · intro m hm
    exact hups.resolve_eq hend (Nat.le_trans hn hm)
  · intro hi
    have hindex : s.found.instruction.isIndexPrefix = true := by
      rcases hi with hi | hi <;> exact congrArg Instruction.isIndexPrefix hi
    exact (isIndexPrefix_iff _).1 ((Decoding.next?_eq_none_iff_of_isIndexPrefix hindex).1 hend)
  · intro hi
    obtain ⟨m, hm, hmode, haddress⟩ := indexAddress_found hi
    rw [hmode]
    refine ⟨?_, haddress⟩
    obtain ⟨rfl, -⟩ | ⟨rfl, -⟩ := hm
    · exact .inl rfl
    · exact .inr rfl

end Board

end EightBit.Z80
