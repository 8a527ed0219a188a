import EightBit.Proofs.Memory
import EightBit.Proofs.Z80.BlockRuns

/-!
# Searching a block

The repeating compare instructions of the Z80 look for the accumulator in a block of memory, byte by
byte, upwards or downwards. A run ends with the first byte that is equal, or else with the last one
that the count stands for, and it may end with a byte that is both: then the flags report the match
and that the count is used up. Nothing is written, so that nothing can disturb the run.

## Main definitions

* `Board.Matches`, `Board.IsFirstMatch`: the bytes that a run looks for.
* `Registers.searchFlags`: the flags after a byte has been compared.
* `Board.searchPlan`: a run, byte by byte.
* `Board.StopsAfter`: the number of bytes after which a run ends.
* `Board.SearchesBlock`: what a run does.

## Main results

* `Board.handlesByte_compare`, `Board.handles_searchPlan`: one byte.
* `Board.searchesBlock`: a whole run.
-/

namespace EightBit.Z80

namespace Registers

/-- The flags after a byte of a block has been compared: those of `CP`, but for the parity, which
shows whether there are more bytes, and the carry, which is kept. -/
def searchFlags (r : Registers) (v : UInt8) (more : Bool) : List (Flag × Bool) :=
  [(.s, (r.alu .cp v).flag .s), (.z, r.a == v), (.h, (r.alu .cp v).flag .h), (.pv, more),
    (.n, true)]

/-- The flags that comparing in a block overwrites: all but the carry. -/
def searchMask : UInt8 :=
  Flag.s.mask ||| Flag.z.mask ||| Flag.h.mask ||| Flag.pv.mask ||| Flag.n.mask

theorem masks_searchFlags (r : Registers) (v : UInt8) (more : Bool) :
    Flag.masks (r.searchFlags v more) = searchMask := by
  simp only [searchFlags, Flag.masks, List.foldr]
  decide

theorem beq_eq_result_beq (a v : UInt8) : (a == v) = ((subBytes a v false).result == 0) := by
  rw [Bool.eq_iff_iff, beq_iff_eq, beq_iff_eq]
  change _ ↔ a - v - 0 = 0
  grind

/-- Sign, zero and half carry are those of the difference. -/
theorem searchFlags_eq (r : Registers) (v : UInt8) (more : Bool) :
    r.searchFlags v more =
      [(.s, isNegative (subBytes r.a v false).result), (.z, (subBytes r.a v false).result == 0),
        (.h, (subBytes r.a v false).half), (.pv, more), (.n, true)] := by
  have hs : (r.alu .cp v).flag .s = isNegative (subBytes r.a v false).result :=
    flag_of_flagByte _ rfl .s
  have hh : (r.alu .cp v).flag .h = (subBytes r.a v false).half :=
    flag_of_flagByte _ rfl .h
  rw [searchFlags, hs, hh, beq_eq_result_beq]

end Registers

namespace Board

variable {β : Type} [Bus β] {increment : Bool} {s t : Board β} {n k : Nat}

/-! ### The bytes of a block -/

/-- Byte `k` of the block is the one in the accumulator. -/
def Matches (increment : Bool) (s : Board β) (k : Nat) : Prop :=
  s.load (moved increment s.cpu.regs.hl k) = s.cpu.regs.a

/-- Byte `j` of the block is the first that is in the accumulator. -/
structure IsFirstMatch (increment : Bool) (s : Board β) (j : Nat) : Prop where
  isMatch : s.Matches increment j
  before : ∀ i < j, ¬s.Matches increment i

/-! ### One byte -/

theorem compareByte_eq (t : Board β) (increment : Bool) :
    t.compareByte increment =
      (t.cpu.regs.bc - 1 != 0 && t.cpu.regs.a != t.load t.cpu.regs.hl, {
        cpu := { t.cpu with
          regs := (t.cpu.regs.advanced increment 1).setFlags
            (t.cpu.regs.searchFlags (t.load t.cpu.regs.hl) (t.cpu.regs.bc - 1 != 0)) }
        bus := t.bus }) := by
  have hne : ((subBytes t.cpu.regs.a (t.load t.cpu.regs.hl) false).result != 0) =
      (t.cpu.regs.a != t.load t.cpu.regs.hl) := by
    rw [bne, bne, ← Registers.beq_eq_result_beq]
  rw [Registers.searchFlags_eq, Registers.advanced_one, compareByte, hne]
  rfl

/-- A step compares a byte. It is the last one if it is equal or the count is used up. -/
theorem handlesByte_compare (h : t.AtBlock .compare increment) :
    t.HandlesByte .compare increment
      (t.cpu.regs.bc - 1 != 0 && t.cpu.regs.a != t.load t.cpu.regs.hl)
      ((t.cpu.regs.advanced increment 1).setFlags
        (t.cpu.regs.searchFlags (t.load t.cpu.regs.hl) (t.cpu.regs.bc - 1 != 0))) t.bus := by
  refine handlesByte h ?_
  rw [blockByte, compareByte_eq, pastEd_eq]
  rfl

/-! ### A run -/

/-- A search moves the pointer and counts, and sets the flags for each byte. -/
def searchPlan (increment : Bool) (s : Board β) : BlockPlan β where
  regs k := s.cpu.regs.advanced increment k
  bus _ := s.bus
  flags k := s.cpu.regs.searchFlags (s.load (moved increment s.cpu.regs.hl k))
    (s.cpu.regs.bc - UInt16.ofNat (k + 1) != 0)
  mask := Registers.searchMask
  f_regs _ := rfl
  masks_flags _ := Registers.masks_searchFlags _ _ _

/-- The end of a search: it has come to a byte that is equal or to the last one, and no byte before
was equal. -/
structure StopsAfter (increment : Bool) (s : Board β) (n : Nat) : Prop where
  pos : 0 < n
  le : n ≤ byteCount s.cpu.regs.bc
  before : ∀ i, i + 1 < n → ¬s.Matches increment i
  stops : n = byteCount s.cpu.regs.bc ∨ s.Matches increment (n - 1)

section Run

variable (h : (s.searchPlan increment).Reached k s t)

include h

theorem load_hl_of_reached : t.load t.cpu.regs.hl = s.load (moved increment s.cpu.regs.hl k) := by
  rw [h.regs, load, h.bus]
  exact congrArg (read s.bus) (Registers.hl_advanced increment k s.cpu.regs)

theorem a_of_reached : t.cpu.regs.a = s.cpu.regs.a := by
  rw [h.regs]
  rfl

theorem bc_sub_one_of_reached : t.cpu.regs.bc - 1 = s.cpu.regs.bc - UInt16.ofNat (k + 1) := by
  have hbc : t.cpu.regs.bc = s.cpu.regs.bc - UInt16.ofNat k := by
    rw [h.regs]
    exact Registers.bc_advanced increment k s.cpu.regs
  rw [hbc, UInt16.ofNat_add]
  grind

/-- A search goes on until it stops. -/
theorem again_of_reached (hstop : s.StopsAfter increment n) (hk : k < n) :
    (t.cpu.regs.bc - 1 != 0 && t.cpu.regs.a != t.load t.cpu.regs.hl) = decide (k + 1 < n) := by
  have hcount : t.cpu.regs.bc - 1 = 0 ↔ k + 1 = byteCount s.cpu.regs.bc := by
    rw [bc_sub_one_of_reached h, UInt16.ofNat_add,
      ← count_eq_zero_iff (Nat.lt_of_lt_of_le hk hstop.le)]
    grind
  have hmatch : t.cpu.regs.a = t.load t.cpu.regs.hl ↔ s.Matches increment k := by
    rw [a_of_reached h, load_hl_of_reached h, Matches, eq_comm]
  rw [Bool.eq_iff_iff, Bool.and_eq_true, bne_iff_ne, bne_iff_ne, decide_eq_true_iff, ne_eq, ne_eq,
    hcount, hmatch]
  constructor
  · rintro ⟨hmore, hmiss⟩
    refine Nat.lt_of_le_of_ne hk fun hlast => ?_
    obtain hend | hfound := hstop.stops
    · exact hmore (hlast.trans hend)
    · exact hmiss (by rwa [← hlast] at hfound)
  · intro hlt
    exact ⟨Nat.ne_of_lt (Nat.lt_of_lt_of_le hlt hstop.le), hstop.before k hlt⟩

/-- Every byte of a search is handled as planned. -/
theorem handles_searchPlan (ht : t.AtBlock .compare increment) (hstop : s.StopsAfter increment n)
    (hk : k < n) : (s.searchPlan increment).Handles .compare increment n k t := by
  have hregs : t.cpu.regs.advanced increment 1 =
      { s.cpu.regs.advanced increment (k + 1) with
        pc := t.cpu.regs.pc
        f := t.cpu.regs.f
        r := t.cpu.regs.r } := by
    rw [Registers.advanced_succ increment k, h.regs]
    rfl
  have hflags (v : UInt8) (more : Bool) :
      t.cpu.regs.searchFlags v more = s.cpu.regs.searchFlags v more := by
    rw [Registers.searchFlags_eq, Registers.searchFlags_eq, a_of_reached h]
  have hbyte := handlesByte_compare ht
  rwa [again_of_reached h hstop hk, hregs, hflags, load_hl_of_reached h, bc_sub_one_of_reached h,
    h.bus] at hbyte

end Run

/-- A search runs until it stops. -/
theorem runsBlock_of_stopsAfter (hs : s.AtBlock .compare increment)
    (hstop : s.StopsAfter increment n) :
    s.RunsBlock .compare increment n
      ((s.cpu.regs.advanced increment n).setFlags
        (s.cpu.regs.searchFlags (s.load (moved increment s.cpu.regs.hl (n - 1)))
          (s.cpu.regs.bc - UInt16.ofNat n != 0))) s.bus := by
  have hrun := BlockPlan.runsBlock (p := s.searchPlan increment) hs hstop.pos
    (Registers.advanced_zero _ _) rfl (fun _ _ _ _ => rfl)
    fun k hk t ht h => handles_searchPlan h ht hstop hk
  have hlast : n - 1 + 1 = n := Nat.sub_add_cancel hstop.pos
  simp only [searchPlan, hlast] at hrun
  exact hrun

theorem IsFirstMatch.stopsAfter {j : Nat} (h : s.IsFirstMatch increment j)
    (hj : j < byteCount s.cpu.regs.bc) : s.StopsAfter increment (j + 1) where
  pos := Nat.succ_pos j
  le := hj
  before i hi := h.before i (Nat.lt_of_succ_lt_succ hi)
  stops := .inr h.isMatch

theorem stopsAfter_byteCount (h : ∀ j < byteCount s.cpu.regs.bc, ¬s.Matches increment j) :
    s.StopsAfter increment (byteCount s.cpu.regs.bc) where
  pos := byteCount_pos _
  le := Nat.le_refl _
  before i hi := h i (Nat.lt_of_succ_lt hi)
  stops := .inl rfl

/-- The run of a search over `n` bytes, of which all but perhaps the last one are not in the
accumulator. Sign and half carry are those of comparing the last one. -/
def SearchesBlock (increment : Bool) (n : Nat) (found : Bool) (s : Board β) : Prop :=
  let compared := s.cpu.regs.alu .cp (s.load (moved increment s.cpu.regs.hl (n - 1)))
  let count := s.cpu.regs.bc - UInt16.ofNat n
  s.RunsBlock .compare increment n
    (((s.cpu.regs.setHl (moved increment s.cpu.regs.hl n)).setBc count).setFlags
      [(.s, compared.flag .s), (.z, found), (.h, compared.flag .h), (.pv, count != 0), (.n, true)])
    s.bus

theorem searchesBlock_of_stopsAfter (hs : s.AtBlock .compare increment)
    (hstop : s.StopsAfter increment n) {found : Bool}
    (hfound : found = true ↔ s.Matches increment (n - 1)) :
    s.SearchesBlock increment n found := by
  have hz : found = (s.cpu.regs.a == s.load (moved increment s.cpu.regs.hl (n - 1))) := by
    rw [Bool.eq_iff_iff, beq_iff_eq, hfound, Matches, eq_comm]
  rw [hz]
  exact runsBlock_of_stopsAfter hs hstop

/-- A processor that runs searches a block up to the first byte that is in the accumulator, or else
over as many bytes as `BC` says. -/
theorem searchesBlock (hs : s.AtBlock .compare increment) :
    (∀ j < byteCount s.cpu.regs.bc, s.IsFirstMatch increment j →
        s.SearchesBlock increment (j + 1) true) ∧
      ((∀ j < byteCount s.cpu.regs.bc, ¬s.Matches increment j) →
        s.SearchesBlock increment (byteCount s.cpu.regs.bc) false) := by
  constructor
  · intro j hj hfirst
    exact searchesBlock_of_stopsAfter hs (hfirst.stopsAfter hj) (iff_of_true rfl hfirst.isMatch)
  · intro hmiss
    have hlast := hmiss _ (Nat.sub_lt (byteCount_pos s.cpu.regs.bc) Nat.one_pos)
    exact searchesBlock_of_stopsAfter hs (stopsAfter_byteCount hmiss)
      (iff_of_false Bool.false_ne_true hlast)

/-- `CPIR` at address zero, over the two bytes behind it. -/
def searchRun (a : UInt8) : Board PortBus where
  cpu := { Cpu.create with
    regs := { Cpu.resetRegisters with a, b := 0, c := 2, h := 0, l := 2 } }
  bus := .ofFlat (.ofMemory (Memory.blank.store 0 [0xED, 0xB1, 0x00, 0xAB]) .silent)

theorem load_searchRun (a : UInt8) (c : UInt16) :
    (searchRun a).load c = [0xED, 0xB1, 0x00, 0xAB].getD c.toNat 0 :=
  Memory.read_store_zero_blank c (by decide)

theorem atBlock_searchRun (a : UInt8) : (searchRun a).AtBlock .compare true :=
  ⟨rfl, load_searchRun a 0, load_searchRun a 1⟩

theorem isFirstMatch_searchRun : (searchRun 0xAB).IsFirstMatch true 1 where
  isMatch := load_searchRun 0xAB 3
  before i hi := by
    rw [Nat.lt_one_iff.1 hi, Matches, moved_zero]
    exact fun h => absurd ((load_searchRun 0xAB 2).symm.trans h) (by decide)

theorem not_matches_searchRun : ∀ j < 2, ¬(searchRun 0x55).Matches true j
  | 0, _, h => absurd ((load_searchRun 0x55 2).symm.trans h) (by decide)
  | 1, _, h => absurd ((load_searchRun 0x55 3).symm.trans h) (by decide)

/-- The last byte is the first match, or no byte is. -/
theorem searchesBlock_searchRun :
    (searchRun 0xAB).AtBlock .compare true ∧ (searchRun 0xAB).IsFirstMatch true 1 ∧
      (searchRun 0xAB).SearchesBlock true 2 true ∧
    (searchRun 0x55).AtBlock .compare true ∧ (∀ j < 2, ¬(searchRun 0x55).Matches true j) ∧
      (searchRun 0x55).SearchesBlock true 2 false :=
  ⟨atBlock_searchRun _, isFirstMatch_searchRun,
    (searchesBlock (atBlock_searchRun 0xAB)).1 1 (by decide) isFirstMatch_searchRun,
    atBlock_searchRun _, not_matches_searchRun,
    (searchesBlock (atBlock_searchRun 0x55)).2 not_matches_searchRun⟩

/-- The same instruction in front of a halted processor. -/
def haltedSearchRun : Board PortBus :=
  { searchRun 0xAB with cpu := { (searchRun 0xAB).cpu with halted := true } }

/-- A halted processor searches nothing. -/
theorem not_forall_searchesBlock :
    ¬∀ s : Board PortBus, s.nextByte = 0xED →
      s.load (s.cpu.regs.pc + 1) = BlockOp.compare.repeating true →
      ∀ j < byteCount s.cpu.regs.bc, s.IsFirstMatch true j → s.SearchesBlock true (j + 1) true := by
  intro h
  have hrun := h haltedSearchRun (load_searchRun 0xAB 0) (load_searchRun 0xAB 1) 1 (by decide)
    ⟨isFirstMatch_searchRun.isMatch, isFirstMatch_searchRun.before⟩
  have hexecuted := (hrun.executed 0 (by decide)).2
  rw [after_zero, step_of_halted rfl] at hexecuted
  exact Option.some_ne_none _ hexecuted.symm

end Board

end EightBit.Z80
