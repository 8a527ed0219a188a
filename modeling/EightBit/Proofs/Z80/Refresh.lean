import EightBit.Proofs.Z80.Acceptance
import EightBit.Proofs.Z80.Sheltered
import EightBit.Proofs.Z80.TraceEntries

/-!
# The refresh counter

The refresh counter counts opcode fetches in its lower seven bits; bit 7 stays as it was loaded.
Which fetches of a step are those of opcodes is told by the first two bytes at the program counter:
prefixes count, and so does the opcode behind them, but for the last byte behind an index prefix,
`CB` and a displacement. Operands never count. A halted processor counts one fetch in every step,
and an interrupt that is accepted counts as one. Nothing else changes the counter but `LD R,A`.

## Main definitions

* `refreshed`: the counter after a number of fetches.
* `opcodeFetches`, `Board.opcodeFetches`: the opcode fetches of a step.
* `Board.Counts`: what was fetched between two boards, of which opcodes are counted.
* `Board.CountsFetches`: what a step does to the counter.
* `Board.opcodesIn`, `Board.acceptedIn`, `Board.totalOf`: the opcodes that a run fetches, and the
  interrupts that it accepts.

## Main results

* `Board.counts_found`: the decoder counts the opcodes it fetches, and no other bytes.
* `Board.countsFetches`: the steps.
* `Board.r_performAll`: the counter after a run.
-/

namespace EightBit.Z80

/-! ### Counting -/

/-- The refresh counter after `n` opcode fetches: bit 7 is kept, and the other bits count. -/
def refreshed (r : UInt8) (n : Nat) : UInt8 :=
  (r &&& 0x80) ||| UInt8.ofNat ((r.toNat + n) % 128)

theorem toNat_refreshed (r : UInt8) (n : Nat) :
    (refreshed r n).toNat = r.toNat / 128 * 128 + (r.toNat + n) % 128 := by
  have htop : ∀ r : UInt8,
      r &&& 0x80 = 0 ∧ r.toNat / 128 = 0 ∨ r &&& 0x80 = 0x80 ∧ r.toNat / 128 = 1 :=
    forall_byte (by decide)
  have hset : ∀ k : Fin 128, (0x80 ||| UInt8.ofNat k).toNat = 128 + k := by decide
  have hlt : (r.toNat + n) % 128 < 128 := Nat.mod_lt _ (by decide)
  rw [refreshed]
  obtain ⟨hr, hdiv⟩ | ⟨hr, hdiv⟩ := htop r
  · rw [hr, hdiv, UInt8.zero_or, Nat.zero_mul, Nat.zero_add]
    exact UInt8.toNat_ofNat_of_lt' (Nat.lt_trans hlt (by decide))
  · rw [hr, hdiv, Nat.one_mul]
    exact hset ⟨_, hlt⟩

@[simp] theorem refreshed_zero (r : UInt8) : refreshed r 0 = r := by
  rw [← UInt8.toNat_inj, toNat_refreshed]
  omega

/-- Fetches may be counted in any number of parts. -/
theorem refreshed_refreshed (r : UInt8) (m n : Nat) :
    refreshed (refreshed r m) n = refreshed r (m + n) := by
  rw [← UInt8.toNat_inj, toNat_refreshed, toNat_refreshed, toNat_refreshed]
  omega

theorem Registers.r_refresh (q : Registers) : q.refresh.r = refreshed q.r 1 := by
  rw [← UInt8.toNat_inj, toNat_refreshed, toNat_refresh]

/-- The opcode fetches of an instruction that begins with two bytes. An index prefix in front of
another one is all there is of an instruction, and one in front of `ED` has no effect. -/
def opcodeFetches (first second : UInt8) : Nat :=
  if first = 0xCB ∨ first = 0xED then 2
  else if first = 0xDD ∨ first = 0xFD then
    if second = 0xDD ∨ second = 0xFD then 1
    else if second = 0xED then 3
    else 2
  else 1

theorem opcodeFetches_le (first second : UInt8) : opcodeFetches first second ≤ 3 := by
  grind [opcodeFetches]

/-! ### The decoder -/

/-- The bytes that the decoder fetches for an instruction beside its opcodes: behind an index prefix
and `CB` these are the displacement and the byte that comes last. -/
def Instruction.uncountedBytes (i : Instruction) : Nat :=
  if i.isIndexed then 2 else 0

theorem Instruction.uncountedBytes_of_not_isIndexed {i : Instruction} (h : i.isIndexed = false) :
    i.uncountedBytes = 0 := by
  rw [uncountedBytes, h]
  rfl

theorem Instruction.uncountedBytes_le (i : Instruction) : i.uncountedBytes ≤ 2 := by
  rw [uncountedBytes]
  split <;> decide

namespace Decode

/-- The other pages hold no instructions whose operands the decoder has aimed at. -/
theorem isIndexed_pages :
    ∀ op, (primary op).instruction.isIndexed = false ∧ (cb op).instruction.isIndexed = false ∧
      (ed op).instruction.isIndexed = false ∧ (index op).instruction.isIndexed = false :=
  forall_byte (by decide)

/-- Behind an index prefix two opcodes are prefixes again. -/
theorem index_of_not_isIndexPrefix :
    ∀ op, isIndexPrefix op = false →
      op = 0xED ∧ (index op).instruction = .prefixEd ∨
        op = 0xCB ∧ (index op).instruction = .prefixIndexCb ∨
        op ≠ 0xED ∧ (index op).instruction.isPrefix = false :=
  forall_byte (by decide)

end Decode

theorem isIndexPrefix_iff (b : UInt8) : isIndexPrefix b = true ↔ b = 0xDD ∨ b = 0xFD := by
  rw [isIndexPrefix, Bool.or_eq_true, beq_iff_eq, beq_iff_eq]

/-- An index prefix is that of an index register. -/
theorem IndexMode.exists_isPrefix {b : UInt8} (h : isIndexPrefix b = true) :
    ∃ m : IndexMode, m.IsPrefix b := by
  rcases (isIndexPrefix_iff _).1 h with hb | hb
  · exact ⟨.ix, .inl ⟨rfl, hb⟩⟩
  · exact ⟨.iy, .inr ⟨rfl, hb⟩⟩

namespace Board

variable {β : Type} [Bus β] {s t u : Board β}

/-- How many bytes were fetched is told by the program counter. -/
theorem Fetches.unique {m n : Nat} (h : s.Fetches t m) (h' : s.Fetches t n) (hm : m < addressCount)
    (hn : n < addressCount) : m = n := by
  have hpc : UInt16.ofNat m = UInt16.ofNat n := (UInt16.add_right_inj _).1 (h.pc.symm.trans h'.pc)
  have hnat := congrArg UInt16.toNat hpc
  rwa [UInt16.toNat_ofNat_of_lt' hm, UInt16.toNat_ofNat_of_lt' hn] at hnat

/-- Between two boards `n` opcodes were fetched, which the counter has counted, and `k` bytes
more. -/
structure Counts (s t : Board β) (n k : Nat) : Prop where
  r : t.cpu.regs.r = refreshed s.cpu.regs.r n
  fetches : s.Fetches t (n + k)

namespace Counts

theorem trans {n k n' k' : Nat} (h : s.Counts t n k) (h' : t.Counts u n' k') :
    s.Counts u (n + n') (k + k') where
  r := by rw [h'.r, h.r, refreshed_refreshed]
  fetches := by
    rw [Nat.add_add_add_comm]
    exact h.fetches.trans h'.fetches

protected theorem skipOpcode (s : Board β) : s.Counts s.skipOpcode 1 0 where
  r := Registers.r_refresh _
  fetches := .skipOpcode s

theorem opcodeIn (s : Board β) (m : IndexMode) : s.Counts (s.setMode m).skipOpcode 1 0 where
  r := Registers.r_refresh _
  fetches := .opcodeIn s m

protected theorem skipIndexCb (s : Board β) : s.Counts s.skipIndexCb 0 2 where
  r := (refreshed_zero _).symm
  fetches := .skipIndexCb s

end Counts

end Board

namespace Decoding

variable {β : Type} [Bus β] {d : Decoding β} {s : Board β} {n : Nat}

/-- The decoder, from the board `s` on, has counted `n` opcodes, and has fetched no other bytes than
the instruction found wants. -/
def Counts (d : Decoding β) (s : Board β) (n : Nat) : Prop :=
  s.Counts d.board n d.instruction.uncountedBytes

theorem counts_of_not_isIndexed (h : s.Counts d.board n 0) (hi : d.instruction.isIndexed = false) :
    d.Counts s n := by
  rw [Counts, Instruction.uncountedBytes_of_not_isIndexed hi]
  exact h

theorem counts_of_isIndexed (h : s.Counts d.board n 2) (hi : d.instruction.isIndexed = true) :
    d.Counts s n := by
  rw [Counts, Instruction.uncountedBytes, if_pos hi]
  exact h

/-- Behind an index prefix and its opcode, only `ED` leads to an opcode that counts. -/
theorem counts_resolve_index (d : Decoding β) (m : IndexMode)
    (h : isIndexPrefix s.nextByte = false) :
    ((d.lookUp Decode.index (s.setMode m)).resolve 1).Counts s
      (if s.nextByte = 0xED then 2 else 1) := by
  have hfirst := Board.Counts.opcodeIn s m
  obtain ⟨hop, hi⟩ | ⟨hop, hi⟩ | ⟨hop, hi⟩ := Decode.index_of_not_isIndexPrefix _ h
  · have hfound : (d.lookUp Decode.index (s.setMode m)).instruction = .prefixEd := hi
    rw [resolve, next?, hfound, if_pos hop]
    obtain ⟨-, -, hed, -⟩ := Decode.isIndexed_pages (s.setMode m).skipOpcode.nextByte
    exact counts_of_not_isIndexed (hfirst.trans (.opcodeIn _ .hl)) hed
  · have hfound : (d.lookUp Decode.index (s.setMode m)).instruction = .prefixIndexCb := hi
    have hnot : s.nextByte ≠ 0xED := by rw [hop]; decide
    rw [resolve, next?, hfound, if_neg hnot]
    exact counts_of_isIndexed (hfirst.trans (.skipIndexCb _)) (Decode.isIndexed_indexCb _)
  · obtain ⟨-, -, -, hindex⟩ := Decode.isIndexed_pages s.nextByte
    have hend := resolve_of_not_prefix (n := 1) (d := d.lookUp Decode.index (s.setMode m)) hi
    rw [hend, if_neg hop]
    exact counts_of_not_isIndexed hfirst hindex

end Decoding

namespace Board

variable {β : Type} [Bus β] {s : Board β}

/-- The fetches of an instruction that begins with an index prefix. -/
theorem opcodeFetches_of_isIndexPrefix {b : UInt8} (h : isIndexPrefix b = true) (c : UInt8) :
    Z80.opcodeFetches b c =
      if isIndexPrefix c then 1 else 1 + if c = 0xED then 2 else 1 := by
  have hb := (isIndexPrefix_iff b).1 h
  have hnot : ¬(b = 0xCB ∨ b = 0xED) := by
    rcases hb with rfl | rfl <;> decide
  rw [Z80.opcodeFetches, if_neg hnot, if_pos hb, apply_ite (1 + ·),
    if_congr (isIndexPrefix_iff c) rfl rfl]

theorem counts_found_of_isIndexPrefix (h : isIndexPrefix s.nextByte = true) :
    s.found.Counts s.started.begin
      (Z80.opcodeFetches s.nextByte (s.load (s.cpu.regs.pc + 1))) := by
  have hfirst := Counts.skipOpcode s.started.begin
  rw [opcodeFetches_of_isIndexPrefix h]
  by_cases hagain : isIndexPrefix (s.load (s.cpu.regs.pc + 1)) = true
  · rw [found, decoded_of_startsPrefixRun (s := s.started.begin) ⟨h, hagain⟩, if_pos hagain]
    exact Decoding.counts_of_not_isIndexed hfirst (Decode.isIndexed_pages _).1
  · have hother := Bool.eq_false_iff.2 hagain
    obtain ⟨m, hm⟩ := IndexMode.exists_isPrefix h
    rw [found, decoded, maxLookUps, Decoding.resolve, s.started.next?_prefixed hm hother,
      if_neg hagain]
    have hrest := Decoding.counts_resolve_index s.started.begin.decodeFirst m
      (s := s.started.begin.skipOpcode) hother
    have hboth := hfirst.trans hrest
    rw [Nat.zero_add] at hboth
    exact hboth

/-- The decoder counts the opcodes that it fetches, and no other bytes. -/
theorem counts_found (s : Board β) :
    s.found.Counts s.started.begin
      (Z80.opcodeFetches s.nextByte (s.load (s.cpu.regs.pc + 1))) := by
  have hfirst := Counts.skipOpcode s.started.begin
  by_cases hindex : isIndexPrefix s.nextByte = true
  · exact counts_found_of_isIndexPrefix hindex
  have hplain := mt (isIndexPrefix_iff _).2 hindex
  by_cases hcb : s.nextByte = 0xCB
  · rw [found, decoded_of_cb (s := s.started.begin) hcb, Z80.opcodeFetches, if_pos (.inl hcb)]
    obtain ⟨-, hpage, -⟩ := Decode.isIndexed_pages s.started.begin.skipOpcode.nextByte
    exact Decoding.counts_of_not_isIndexed (hfirst.trans (.skipOpcode _)) hpage
  by_cases hed : s.nextByte = 0xED
  · rw [found, decoded_of_ed (s := s.started.begin) hed, Z80.opcodeFetches, if_pos (.inr hed)]
    obtain ⟨-, -, hpage, -⟩ := Decode.isIndexed_pages s.started.begin.skipOpcode.nextByte
    exact Decoding.counts_of_not_isIndexed (hfirst.trans (.opcodeIn _ .hl)) hpage
  · have hnot : s.nextByte ∉ prefixBytes := by simp_all [prefixBytes]
    rw [found, decoded_plain (s := s.started.begin) hnot, Z80.opcodeFetches,
      if_neg (not_or.2 ⟨hcb, hed⟩), if_neg hplain]
    exact Decoding.counts_of_not_isIndexed hfirst (Decode.isIndexed_pages _).1

/-- The bytes of a step are its opcodes, those that the decoder fetches beside them, and the
operands. -/
theorem length_fetchedBytes_eq (s : Board β) :
    s.fetchedBytes.length = Z80.opcodeFetches s.nextByte (s.load (s.cpu.regs.pc + 1)) +
      s.found.instruction.uncountedBytes +
      s.found.instruction.operandBytes s.found.board.cpu.mode := by
  obtain ⟨n, hfetches, -, hn, -⟩ := s.exists_fetches_found
  have hcounts := s.counts_found.fetches
  have hle := Nat.add_le_add (opcodeFetches_le s.nextByte (s.load (s.cpu.regs.pc + 1)))
    s.found.instruction.uncountedBytes_le
  rw [hcounts.unique hfetches (Nat.lt_of_le_of_lt hle (by decide))
    (Nat.lt_of_le_of_lt hn (by decide)), fetchedBytes_eq hfetches hn, length_ahead]

/-! ### Steps -/

/-- The opcode fetches of the next step. A halted processor goes on fetching. -/
def opcodeFetches (s : Board β) : Nat :=
  if s.cpu.halted then 1
  else Z80.opcodeFetches s.nextByte (s.load (s.cpu.regs.pc + 1))

/-- The next step executes `LD R,A`. -/
def LoadsRefresh (s : Board β) : Prop :=
  ∃ m, s.step.executed = some (m, .loadRA)

/-- A step that does not load the counter counts its opcode fetches. -/
theorem r_step (h : ¬s.LoadsRefresh) :
    s.step.board.cpu.regs.r = refreshed s.cpu.regs.r s.opcodeFetches := by
  rcases Bool.eq_false_or_eq_true s.cpu.halted with hhalted | hrun
  · rw [step_of_halted hhalted, opcodeFetches, if_pos hhalted]
    exact Registers.r_refresh _
  · have hi : s.found.instruction ≠ .loadRA := fun hi =>
      h ⟨s.found.board.cpu.mode, by rw [executed_of_running hrun, hi]⟩
    rw [opcodeFetches, if_neg (Bool.eq_false_iff.1 hrun)]
    calc s.step.board.cpu.regs.r
        = (s.found.board.execute s.found.instruction).cpu.regs.r := by
          rw [step_eq_execute hrun]; rfl
      _ = s.found.board.cpu.regs.r := r_execute _ hi
      _ = _ := s.counts_found.r

/-- What a step does to the refresh counter. -/
structure CountsFetches (s : Board β) : Prop where
  counts : ¬s.LoadsRefresh → s.step.board.cpu.regs.r = refreshed s.cpu.regs.r s.opcodeFetches
  /-- The other bytes of an instruction do not count. -/
  bytes : s.cpu.halted = false → s.fetchedBytes.length =
    s.opcodeFetches + s.found.instruction.uncountedBytes +
      s.found.instruction.operandBytes s.found.board.cpu.mode
  /-- `LD R,A` loads the whole counter. -/
  loads : s.LoadsRefresh → s.step.board.cpu.regs.r = s.cpu.regs.a
  /-- `LD A,R` finds its own fetches counted. -/
  reads : ∀ m, s.step.executed = some (m, .loadAR) →
    s.step.board.cpu.regs.a = refreshed s.cpu.regs.r s.opcodeFetches

theorem countsFetches (s : Board β) : s.CountsFetches where
  counts := r_step
  bytes hrun := by
    rw [opcodeFetches, if_neg (Bool.eq_false_iff.1 hrun)]
    exact s.length_fetchedBytes_eq
  loads := by
    rintro ⟨m, h⟩
    obtain ⟨pc, r, bytes, m', a, hfound⟩ := s.started.begin.fetchedFrom_decoded
    rw [(found_of_executed h).2, found, hfound]
    rfl
  reads m h := by
    have hother : ¬s.LoadsRefresh := by
      rintro ⟨m', h'⟩
      rw [h] at h'
      cases h'
    rw [← r_step hother, (found_of_executed h).2]
    rfl

/-! ### Runs -/

/-- The opcodes that a call fetches. -/
def opcodesIn (s : Board β) : Call β → Nat
  | .step => s.opcodeFetches
  | _ => 0

/-- The interrupts that a call accepts. -/
def acceptedIn (s : Board β) : Call β → Nat
  | .interrupt => if s.handleInterrupts.1.isSome then 1 else 0
  | _ => 0

/-- What the calls of a run amount to, where `n` is what one amounts to on the board that it
finds. -/
def totalOf (n : Board β → Call β → Nat) : Board β → List (Call β) → Nat
  | _, [] => 0
  | s, c :: calls => n s c + totalOf n (s.perform c) calls

/-- A call loads the whole counter. -/
def Loads (s : Board β) : Call β → Prop
  | .step => s.LoadsRefresh
  | .reset => True
  | _ => False

/-- No call of a run does. -/
def NeverLoads : Board β → List (Call β) → Prop
  | _, [] => True
  | s, c :: calls => ¬s.Loads c ∧ (s.perform c).NeverLoads calls

/-- The entry sequence of an interrupt counts as one fetch. -/
theorem r_handleInterrupts (s : Board β) :
    s.handleInterrupts.2.cpu.regs.r = refreshed s.cpu.regs.r (s.acceptedIn .interrupt) := by
  rw [acceptedIn, handleInterrupts]
  dsimp only
  split
  · exact Registers.r_refresh _
  · split
    · exact Registers.r_refresh _
    · exact (refreshed_zero _).symm

theorem r_perform {c : Call β} (h : ¬s.Loads c) :
    (s.perform c).cpu.regs.r = refreshed s.cpu.regs.r (s.opcodesIn c + s.acceptedIn c) := by
  cases c with
  | step => exact r_step h
  | interrupt =>
    have hnone : s.opcodesIn .interrupt = 0 := rfl
    rw [hnone, Nat.zero_add]
    exact s.r_handleInterrupts
  | reset => exact absurd trivial h
  | setFlag x on => cases on <;> exact (refreshed_zero _).symm
  | setPair p w => cases p <;> exact (refreshed_zero _).symm
  | _ => exact (refreshed_zero _).symm

/-- A run that does not load the counter counts the opcodes it fetches and the interrupts it
accepts. -/
theorem r_performAll {calls : List (Call β)} (h : s.NeverLoads calls) :
    (s.performAll calls).cpu.regs.r =
      refreshed s.cpu.regs.r (totalOf opcodesIn s calls + totalOf acceptedIn s calls) := by
  induction calls generalizing s with
  | nil => exact (refreshed_zero _).symm
  | cons c calls ih =>
    calc (s.performAll (c :: calls)).cpu.regs.r
        = refreshed (s.perform c).cpu.regs.r (totalOf opcodesIn (s.perform c) calls +
            totalOf acceptedIn (s.perform c) calls) := ih h.2
      _ = refreshed s.cpu.regs.r (s.opcodesIn c + s.acceptedIn c +
            (totalOf opcodesIn (s.perform c) calls + totalOf acceptedIn (s.perform c) calls)) := by
        rw [r_perform h.1, refreshed_refreshed]
      _ = refreshed s.cpu.regs.r (totalOf opcodesIn s (c :: calls) +
            totalOf acceptedIn s (c :: calls)) := by
        rw [totalOf, totalOf, Nat.add_add_add_comm]

/-- **The refresh counter.** On every board a step counts the opcodes it fetches, unless it executes
`LD R,A`; so that after every run that does not load the counter its lower seven bits have counted
the opcodes that the run fetched and the interrupts that it accepted, and bit 7 is what it was. -/
theorem countsFetches_and_r_performAll (s : Board β) (calls : List (Call β))
    (h : s.NeverLoads calls) :
    s.CountsFetches ∧ (s.performAll calls).cpu.regs.r =
      (s.cpu.regs.r &&& 0x80) ||| UInt8.ofNat
        ((s.cpu.regs.r.toNat + (totalOf opcodesIn s calls + totalOf acceptedIn s calls)) % 128) :=
  ⟨s.countsFetches, r_performAll h⟩

/-- A non-maskable interrupt is latched, and memory is blank. -/
def latchedBoard : Board PortBus where
  cpu := .create
  bus := { PortBus.ofFlat (.ofMemory .blank .silent) with nmi := true }

/-- The interrupt is accepted, and its handler begins with a `NOP`. -/
theorem nextByte_latchedBoard : latchedBoard.handleInterrupts.2.nextByte = 0 :=
  (Memory.read_write_of_ne (Memory.blank.write 0xFFFE 0) 0 (by decide)).trans
    ((Memory.read_write_of_ne _ 0 (by decide)).trans (Memory.read_blank 0x0066))

theorem r_latchedBoard :
    latchedBoard.NeverLoads [.interrupt, .step] ∧ latchedBoard.CountsFetches ∧
      (latchedBoard.performAll [.interrupt, .step]).cpu.regs.r = 2 := by
  have hnop := nextByte_latchedBoard
  obtain ⟨hexecuted, -⟩ := step_of_plain (s := latchedBoard.handleInterrupts.2) rfl hnop (by decide)
  have hnever : latchedBoard.NeverLoads [.interrupt, .step] := by
    refine ⟨id, ?_, trivial⟩
    rintro ⟨m, h⟩
    have hload : Instruction.nop = .loadRA :=
      congrArg Prod.snd (Option.some.inj (hexecuted.symm.trans h))
    cases hload
  have hstep : latchedBoard.handleInterrupts.2.opcodeFetches = 1 := by
    rw [opcodeFetches, hnop]
    rfl
  have hopcodes : totalOf opcodesIn latchedBoard [.interrupt, .step] = 1 :=
    congrArg (0 + ·) hstep
  have haccepted : totalOf acceptedIn latchedBoard [.interrupt, .step] = 1 := rfl
  obtain ⟨hcounts, hr⟩ := countsFetches_and_r_performAll latchedBoard [.interrupt, .step] hnever
  rw [hopcodes, haccepted] at hr
  exact ⟨hnever, hcounts, hr⟩

end Board

end EightBit.Z80
