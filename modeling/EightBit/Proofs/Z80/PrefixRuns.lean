import EightBit.Proofs.Z80.Blocks
import EightBit.Proofs.Z80.Surroundings

/-!
# Runs of index prefixes

Index prefixes may stand one after the other in any number. All but the last one are steps of their
own, which do nothing but to fetch a byte. The last one belongs to the instruction behind it, and
the step that executes this instruction is that of a processor which finds it with one prefix only.
Nothing that the processor knew about the prefixes in front is left by then: the bytes recorded for
them have been overwritten too.

## Main definitions

* `Board.PrefixRun`: a number of index prefixes at the program counter.
* `Board.SkipsPrefix`: what a step at a prefix in front of another one does.
* `Cpu.MovedOn`: a processor behind a number of prefixes, but for what it forgets.
* `Board.SameCode`: boards whose processors are about to fetch the same bytes.
* `Board.StepsThrough`: what the steps of a run do.

## Main results

* `Board.step_alike`, `Board.step_congr`: a step does not depend on what the step before has left to
  be forgotten.
* `Board.SameCode.decoded`: what the decoder finds depends on few bytes.
* `Board.stepsThrough`: a run.
-/

namespace EightBit.Z80

/-- The processor `c'` is `c` behind `k` prefixes. The shadow of an `EI`, and what is known of the
instruction that was executed last, may be anything. -/
structure Cpu.MovedOn (k : Nat) (c c' : Cpu) : Prop where
  regs : c'.regs =
    { c.regs with
      pc := c.regs.pc + UInt16.ofNat k
      r := (Registers.refresh^[k] c.regs).r }
  iff1 : c'.iff1 = c.iff1
  iff2 : c'.iff2 = c.iff2
  im : c'.im = c.im
  halted : c'.halted = c.halted
  invalidOpcodes : c'.invalidOpcodes = c.invalidOpcodes

namespace Board

variable {β : Type} [Bus β] {s t u : Board β} {c : Cpu} {k : Nat}

/-! ### What a step forgets -/

omit [Bus β] in
theorem cpu_started_begin_alike {γ : Type} {u : Board γ} (ht : c.MovedOn k t.cpu)
    (hu : c.MovedOn k u.cpu) : Recording.Alike t.started.begin.cpu u.started.begin.cpu where
  bytes := rfl
  rest := by
    simp only [Recording.setRecord, Recording.record, started, begin, ht.regs, hu.regs, ht.iff1,
      hu.iff1, ht.iff2, hu.iff2, ht.im, hu.im, ht.halted, hu.halted, ht.invalidOpcodes,
      hu.invalidOpcodes]

/-- A step does not depend on what the step before has left to be forgotten. -/
theorem step_alike (hrun : c.halted = false) (hbus : u.bus = t.bus) (ht : c.MovedOn k t.cpu)
    (hu : c.MovedOn k u.cpu) : t.step.Alike u.step :=
  Alike.step_of_begin ⟨cpu_started_begin_alike ht hu, hbus⟩ (ht.halted.trans hrun)

/-- What the decoder finds is the very same if the buffers differ at most in the first byte, which
is overwritten. -/
theorem found_congr (hbus : u.bus = t.bus) (ht : c.MovedOn k t.cpu) (hu : c.MovedOn k u.cpu)
    (hrecord : u.cpu.fetched.SameBehindFirst t.cpu.fetched) : t.found = u.found := by
  have hbegin : u.started.begin = { t.started.begin with
      cpu := { t.started.begin.cpu with fetched := u.cpu.fetched.clear } } :=
    congrArg₂ Board.mk (cpu_started_begin_alike ht hu).rest hbus
  have hskip : u.started.begin.skipOpcode = t.started.begin.skipOpcode := by
    rw [hbegin, skipOpcode_eq, skipOpcode_eq]
    exact congrArg (fun bs => { t.started.begin.skipOpcode with
      cpu := { t.started.begin.skipOpcode.cpu with fetched := bs } })
        (hrecord.clear_push_eq t.nextByte)
  have hfirst : u.started.begin.decodeFirst = t.started.begin.decodeFirst := by
    have hnext : u.started.begin.nextByte = t.started.begin.nextByte := by
      rw [hbegin]
      rfl
    rw [decodeFirst, decodeFirst, hskip, hnext]
  rw [found, found, decoded, decoded, hfirst]

/-- The whole step is the same then. -/
theorem step_congr (hrun : c.halted = false) (hbus : u.bus = t.bus) (ht : c.MovedOn k t.cpu)
    (hu : c.MovedOn k u.cpu) (hrecord : u.cpu.fetched.SameBehindFirst t.cpu.fetched) :
    t.step = u.step := by
  rw [step_eq_execute (ht.halted.trans hrun), step_eq_execute (hu.halted.trans hrun)]
  exact congrArg Decoding.execute (found_congr hbus ht hu hrecord)

/-! ### One prefix in front of another one -/

/-- A step does nothing but to fetch a byte, and to end the shadow of an `EI`. -/
structure SkipsPrefix (s : Board β) : Prop where
  cycles : s.step.cycles = 4
  bus : s.step.board.bus = s.bus
  regs : s.step.board.cpu.regs = { s.cpu.regs.refresh with pc := s.cpu.regs.pc + 1 }
  iff1 : s.step.board.cpu.iff1 = s.cpu.iff1
  iff2 : s.step.board.cpu.iff2 = s.cpu.iff2
  im : s.step.board.cpu.im = s.cpu.im
  halted : s.step.board.cpu.halted = s.cpu.halted
  invalidOpcodes : s.step.board.cpu.invalidOpcodes = s.cpu.invalidOpcodes
  eiShadow : s.step.board.cpu.eiShadow = false
  fetched : s.step.board.cpu.fetched = s.cpu.fetched.clear.push s.nextByte

theorem skipsPrefix (h : s.StartsPrefixRun) (hrun : s.cpu.halted = false) : s.SkipsPrefix := by
  constructor <;> rw [step_eq_of_startsPrefixRun h hrun] <;> rfl

/-! ### A run -/

/-- The program counter points to `k` index prefixes and then to another byte. -/
structure PrefixRun (k : Nat) (s : Board β) : Prop where
  running : s.cpu.halted = false
  pos : 0 < k
  prefixes : ∀ i < k, isIndexPrefix (s.load (s.cpu.regs.pc + UInt16.ofNat i)) = true
  last : isIndexPrefix (s.load (s.cpu.regs.pc + UInt16.ofNat k)) = false

omit [Bus β] in
theorem movedOn_zero (s : Board β) : s.cpu.MovedOn 0 s.cpu where
  regs := by
    have hpc : s.cpu.regs.pc + UInt16.ofNat 0 = s.cpu.regs.pc := UInt16.add_zero _
    rw [hpc]
    rfl
  iff1 := rfl
  iff2 := rfl
  im := rfl
  halted := rfl
  invalidOpcodes := rfl

theorem SkipsPrefix.movedOn (h : t.SkipsPrefix) (ht : c.MovedOn k t.cpu) :
    c.MovedOn (k + 1) t.step.board.cpu where
  regs := by
    have hpc : c.regs.pc + UInt16.ofNat k + 1 = c.regs.pc + UInt16.ofNat (k + 1) := by
      rw [UInt16.ofNat_add, ← UInt16.add_assoc]
      rfl
    rw [h.regs, ht.regs, Function.iterate_succ_apply', ← hpc]
    rfl
  iff1 := h.iff1.trans ht.iff1
  iff2 := h.iff2.trans ht.iff2
  im := h.im.trans ht.im
  halted := h.halted.trans ht.halted
  invalidOpcodes := h.invalidOpcodes.trans ht.invalidOpcodes

namespace PrefixRun

variable (h : s.PrefixRun k)

include h

/-- Behind fewer prefixes than there are but one, two of them come next. -/
theorem startsPrefixRun {i : Nat} (hi : i + 1 < k) (hbus : t.bus = s.bus)
    (ht : s.cpu.MovedOn i t.cpu) : t.StartsPrefixRun := by
  have hpc : t.cpu.regs.pc = s.cpu.regs.pc + UInt16.ofNat i := by rw [ht.regs]
  have hpc' : t.cpu.regs.pc + 1 = s.cpu.regs.pc + UInt16.ofNat (i + 1) := by
    rw [hpc, UInt16.ofNat_add, ← UInt16.add_assoc]
    rfl
  constructor
  · rw [nextByte, load, hbus, hpc]
    exact h.prefixes i (by omega)
  · rw [load, hbus, hpc']
    exact h.prefixes (i + 1) hi

/-- What the steps in front of the last prefix have done. -/
theorem after {i : Nat} (hi : i ≤ k - 1) :
    (s.after i).bus = s.bus ∧ s.cpu.MovedOn i (s.after i).cpu ∧
      (s.after i).cpu.fetched.SameBehindFirst s.cpu.fetched := by
  refine after_induction (P := fun i t => t.bus = s.bus ∧ s.cpu.MovedOn i t.cpu ∧
    t.cpu.fetched.SameBehindFirst s.cpu.fetched) ⟨rfl, movedOn_zero s, fun _ _ _ => rfl⟩ ?_ hi
  rintro i hi ⟨hbus, ht, hrecord⟩
  have hskips := skipsPrefix (h.startsPrefixRun (by omega) hbus ht) (ht.halted.trans h.running)
  refine ⟨hskips.bus.trans hbus, hskips.movedOn ht, ?_⟩
  rw [hskips.fetched]
  exact (InstructionBytes.sameBehindFirst_clear_push _ _).trans hrecord

/-- Another prefix in front of the last one. -/
theorem skips {i : Nat} (hi : i + 1 < k) : (s.after i).SkipsPrefix := by
  obtain ⟨hbus, ht, -⟩ := h.after (i := i) (by omega)
  exact skipsPrefix (h.startsPrefixRun hi hbus ht) (ht.halted.trans h.running)

/-- In front of the last prefix, it is the only one. -/
theorem not_startsPrefixRun (hbus : t.bus = s.bus) (ht : s.cpu.MovedOn (k - 1) t.cpu) :
    ¬ t.StartsPrefixRun := by
  rintro ⟨-, hnext⟩
  have hpc : t.cpu.regs.pc + 1 = s.cpu.regs.pc + UInt16.ofNat k := by
    have hk : k = k - 1 + 1 := (Nat.sub_add_cancel h.pos).symm
    rw [ht.regs, hk, UInt16.ofNat_add, ← UInt16.add_assoc, ← hk]
    rfl
  rw [load, hbus, hpc] at hnext
  exact Bool.false_ne_true (h.last.symm.trans hnext)

/-- The step there completes an instruction. -/
theorem isIndexPrefix_found (hbus : t.bus = s.bus) (ht : s.cpu.MovedOn (k - 1) t.cpu) :
    t.found.instruction.isIndexPrefix = false :=
  Bool.eq_false_iff.2 fun hprefix =>
    h.not_startsPrefixRun hbus ht
      ((isIndexPrefix_decoded_iff (s := t.started.begin)).1 hprefix)

end PrefixRun

/-! ### The bytes that the decoder sees -/

/-- The processors are in the same state, and find the same `n` bytes at the program counter. -/
structure SameCode {γ : Type} [Bus γ] (n : Nat) (t : Board β) (u : Board γ) : Prop where
  cpu : t.cpu = u.cpu
  bytes : ∀ i < n,
    t.load (t.cpu.regs.pc + UInt16.ofNat i) = u.load (t.cpu.regs.pc + UInt16.ofNat i)

namespace SameCode

variable {γ : Type} [Bus γ] {u : Board γ} {n : Nat}

theorem nextByte (h : SameCode (n + 1) t u) : t.nextByte = u.nextByte := by
  have hfirst := h.bytes 0 (Nat.succ_pos n)
  have hpc : t.cpu.regs.pc + UInt16.ofNat 0 = t.cpu.regs.pc := UInt16.add_zero _
  rw [hpc] at hfirst
  rw [Board.nextByte, Board.nextByte, ← h.cpu]
  exact hfirst

theorem mono {n' : Nat} (h : SameCode n t u) (hn : n' ≤ n) : SameCode n' t u :=
  ⟨h.cpu, fun i hi => h.bytes i (Nat.lt_of_lt_of_le hi hn)⟩

theorem skip (h : SameCode (n + 1) t u) : SameCode n t.skip u.skip where
  cpu := by rw [Board.skip, Board.skip, h.nextByte, h.cpu]
  bytes i hi := by
    have hpc : t.skip.cpu.regs.pc + UInt16.ofNat i =
        t.cpu.regs.pc + UInt16.ofNat (i + 1) := by
      rw [pc_skip, UInt16.add_assoc, UInt16.add_comm 1, UInt16.ofNat_add]
      rfl
    rw [hpc]
    exact h.bytes (i + 1) (Nat.succ_lt_succ hi)

/-- A change of the processor that does not move the program counter. -/
theorem mapCpu (h : SameCode n t u) {f : Cpu → Cpu} (hf : (f t.cpu).regs.pc = t.cpu.regs.pc) :
    SameCode n { t with cpu := f t.cpu } { u with cpu := f u.cpu } where
  cpu := congrArg f h.cpu
  bytes i hi := by
    rw [hf]
    exact h.bytes i hi

theorem skipOpcode (h : SameCode (n + 1) t u) : SameCode n t.skipOpcode u.skipOpcode :=
  h.skip.mapCpu (f := fun c => { c with regs := c.regs.refresh }) rfl

theorem setMode (h : SameCode n t u) (m : IndexMode) : SameCode n (t.setMode m) (u.setMode m) :=
  h.mapCpu (f := fun c => { c with mode := m }) rfl

theorem skipIndexCb (h : SameCode (n + 2) t u) : SameCode n t.skipIndexCb u.skipIndexCb := by
  have ha : t.indexValue + displacement t.nextByte = u.indexValue + displacement u.nextByte := by
    rw [indexValue, indexValue, h.nextByte, h.cpu]
  rw [Board.skipIndexCb, Board.skipIndexCb, ha]
  exact h.skip.skip.mapCpu
    (f := fun c => { c with indexAddress := some (u.indexValue + displacement u.nextByte) }) rfl

end SameCode

end Board

/-- What has been found is the same, and so are the next `n` bytes. -/
structure Decoding.SameCode {β γ : Type} [Bus β] [Bus γ] (n : Nat) (d : Decoding β)
    (e : Decoding γ) : Prop where
  cycles : d.cycles = e.cycles
  instruction : d.instruction = e.instruction
  board : Board.SameCode n d.board e.board

/-- The bytes that a look-up fetches after an instruction has been found. -/
def Instruction.lookUpBytes : Instruction → Nat
  | prefixIndexCb => 2
  | _ => 1

theorem Instruction.lookUpBytes_le (i : Instruction) : i.lookUpBytes ≤ 2 := by
  unfold lookUpBytes
  split <;> decide

theorem Decode.lookUpBytes_primary : ∀ op, (primary op).instruction.lookUpBytes = 1 :=
  forall_byte (by decide)

namespace Decoding.SameCode

variable {β γ : Type} [Bus β] [Bus γ] {n : Nat} {d : Decoding β} {e : Decoding γ} {t : Board β}
  {u : Board γ}

theorem lookUp (hcycles : d.cycles = e.cycles) (h : Board.SameCode (n + 1) t u)
    (page : UInt8 → Entry) : SameCode n (d.lookUp page t) (e.lookUp page u) where
  cycles := by rw [Decoding.lookUp, Decoding.lookUp, hcycles, h.nextByte]
  instruction := by rw [Decoding.lookUp, Decoding.lookUp, h.nextByte]
  board := h.skipOpcode

/-- A look-up leads from one to the other. -/
theorem next? (h : SameCode (n + d.instruction.lookUpBytes) d e) :
    d.next? = none ∧ e.next? = none ∨
      ∃ d' e', d.next? = some d' ∧ e.next? = some e' ∧ SameCode n d' e' := by
  have hfollow (m : IndexMode) (hboard : Board.SameCode (n + 1) d.board e.board) :
      d.followIndex m = none ∧ e.followIndex m = none ∨
        ∃ d' e', d.followIndex m = some d' ∧ e.followIndex m = some e' ∧ SameCode n d' e' := by
    rw [followIndex, followIndex, hboard.nextByte]
    split
    · exact .inl ⟨rfl, rfl⟩
    · exact .inr ⟨_, _, rfl, rfl, lookUp h.cycles (hboard.setMode m) _⟩
  have hboard := h.board
  rw [Decoding.next?, Decoding.next?, ← h.instruction]
  split
  next hi =>
    rw [hi] at hboard
    exact hfollow .ix hboard
  next hi =>
    rw [hi] at hboard
    exact hfollow .iy hboard
  next hi =>
    rw [hi] at hboard
    exact .inr ⟨_, _, rfl, rfl, lookUp h.cycles (hboard.setMode .hl) _⟩
  next hi =>
    rw [hi] at hboard
    exact .inr ⟨_, _, rfl, rfl, lookUp h.cycles hboard _⟩
  next hi =>
    rw [hi] at hboard
    refine .inr ⟨_, _, rfl, rfl, ?_, ?_, hboard.skipIndexCb⟩
    · rw [h.cycles, hboard.skip.nextByte]
    · rw [hboard.skip.nextByte]
  next => exact .inl ⟨rfl, rfl⟩

end Decoding.SameCode

namespace Board

variable {β γ : Type} [Bus β] [Bus γ] {t : Board β} {u : Board γ}

/-- What the decoder finds depends on four bytes. -/
theorem SameCode.decoded (h : SameCode 4 t u) : Decoding.SameCode 0 t.decoded u.decoded := by
  have hfirst : Decoding.SameCode 3 t.decodeFirst u.decodeFirst :=
    ⟨by rw [decodeFirst, decodeFirst, h.nextByte], by rw [decodeFirst, decodeFirst, h.nextByte],
      h.skipOpcode⟩
  have hone : t.decodeFirst.instruction.lookUpBytes = 1 := Decode.lookUpBytes_primary _
  rw [Board.decoded, Board.decoded, maxLookUps, Decoding.resolve, Decoding.resolve]
  obtain ⟨hd, he⟩ | ⟨d, e, hd, he, hsecond⟩ :=
    Decoding.SameCode.next? (n := 2) (by rw [hone]; exact hfirst)
  · rw [hd, he]
    exact ⟨hfirst.cycles, hfirst.instruction, hfirst.board.mono (Nat.zero_le 3)⟩
  · rw [hd, he]
    simp only [Decoding.resolve]
    have htwo : Decoding.SameCode (0 + d.instruction.lookUpBytes) d e :=
      ⟨hsecond.cycles, hsecond.instruction, by
        rw [Nat.zero_add]
        exact hsecond.board.mono d.instruction.lookUpBytes_le⟩
    obtain ⟨hd', he'⟩ | ⟨d', e', hd', he', hthird⟩ := htwo.next?
    · rw [hd', he']
      exact ⟨hsecond.cycles, hsecond.instruction, hsecond.board.mono (Nat.zero_le 2)⟩
    · rw [hd', he']
      exact hthird

theorem SameCode.decoded_eq {t u : Board β} {b : β} (h : SameCode 4 t u) (hbus : t.bus = b) :
    t.decoded = ⟨u.decoded.cycles, u.decoded.instruction, u.decoded.board.cpu, b⟩ := by
  have hfetched : t.decoded.board.bus = b := by
    obtain ⟨_, _, _, _, _, hboard⟩ := fetchedFrom_decoded t
    rw [hboard]
    exact hbus
  have hsame := h.decoded
  rw [← hsame.cycles, ← hsame.instruction, ← hsame.board.cpu, ← hfetched]

/-- Two processors behind the same prefixes decode alike if they find the same bytes. -/
theorem sameCode_begin {s : Board β} {k : Nat} (hbus : t.bus = s.bus)
    (ht : s.cpu.MovedOn k t.cpu) (hu : s.cpu.MovedOn k u.cpu)
    (hfetched : u.cpu.fetched = t.cpu.fetched)
    (hbytes : ∀ i < 4, s.load (u.cpu.regs.pc + UInt16.ofNat i) =
      u.load (u.cpu.regs.pc + UInt16.ofNat i)) :
    SameCode 4 t.started.begin u.started.begin where
  cpu := by
    rw [(cpu_started_begin_alike ht hu).rest]
    exact congrArg (fun bs => Recording.setRecord t.started.begin.cpu bs.clear) hfetched.symm
  bytes i hi := by
    have hpc : t.cpu.regs.pc = u.cpu.regs.pc := by rw [ht.regs, hu.regs]
    change read t.bus (t.cpu.regs.pc + UInt16.ofNat i) =
      read u.bus (t.cpu.regs.pc + UInt16.ofNat i)
    rw [hbus, hpc]
    exact hbytes i hi

/-- The step that executes, in the surroundings `bus`, what a processor finds at its program
counter. -/
def stepIn (bus : β) (u : Board γ) : Stepped β :=
  Decoding.execute ⟨u.found.cycles, u.found.instruction, u.found.board.cpu, bus⟩

/-- It does not depend on what the step before has left to be forgotten either. -/
theorem stepIn_alike {c : Cpu} {k : Nat} {t u : Board γ} (hbus : u.bus = t.bus)
    (ht : c.MovedOn k t.cpu) (hu : c.MovedOn k u.cpu) (bus : β) :
    (t.stepIn bus).Alike (u.stepIn bus) := by
  have hbegin : t.started.begin.Alike u.started.begin := ⟨cpu_started_begin_alike ht hu, hbus⟩
  have hfound : t.found.Alike u.found := hbegin.decoded
  exact Decoding.Alike.execute ⟨hfound.cycles, hfound.instruction, hfound.board.cpu, rfl⟩

/-- The steps of a processor that comes to `k` index prefixes. -/
structure StepsThrough (k : Nat) (s : Board β) : Prop where
  /-- All prefixes but the last one are steps of their own. -/
  skips : ∀ i, i + 1 < k → (s.after i).SkipsPrefix
  reached : s.cpu.MovedOn (k - 1) (s.after (k - 1)).cpu ∧ (s.after (k - 1)).bus = s.bus
  /-- The step at the last prefix completes an instruction. -/
  completes : (s.after (k - 1)).found.instruction.isIndexPrefix = false
  /-- It is that of a processor that starts there: the very same one, unless something else is left
  in the buffer of the record, and then up to this buffer. -/
  alone : ∀ u : Board β, u.bus = s.bus → s.cpu.MovedOn (k - 1) u.cpu →
    (s.after (k - 1)).step.Alike u.step ∧ s.cyclesOver k = 4 * (k - 1) + u.step.cycles ∧
      (u.cpu.fetched.SameBehindFirst s.cpu.fetched → (s.after (k - 1)).step = u.step)
  /-- It executes what any processor that starts there in front of the same bytes finds. -/
  code : ∀ u : Board β, s.cpu.MovedOn (k - 1) u.cpu →
    (∀ i < 4, s.load (u.cpu.regs.pc + UInt16.ofNat i) = u.load (u.cpu.regs.pc + UInt16.ofNat i)) →
      (s.after (k - 1)).step.Alike (u.stepIn s.bus) ∧
        (u.cpu.fetched.SameBehindFirst s.cpu.fetched →
          (s.after (k - 1)).step = u.stepIn s.bus)

/-- A processor that runs steps through index prefixes. -/
theorem stepsThrough {s : Board β} {k : Nat} (h : s.PrefixRun k) : s.StepsThrough k := by
  obtain ⟨hbus, hmoved, hrecord⟩ := h.after (Nat.le_refl (k - 1))
  have hlast : k = k - 1 + 1 := (Nat.sub_add_cancel h.pos).symm
  have hcycles : s.cyclesOver (k - 1) = 4 * (k - 1) := cyclesOver_eq_mul fun i hi =>
    (h.skips (Nat.add_lt_of_lt_sub hi)).cycles
  exact {
    skips := fun i hi => h.skips hi
    reached := ⟨hmoved, hbus⟩
    completes := h.isIndexPrefix_found hbus hmoved
    alone := fun u hu hucpu => by
      have hsame : u.bus = (s.after (k - 1)).bus := hu.trans hbus.symm
      have hstep := step_alike h.running hsame hmoved hucpu
      refine ⟨hstep, ?_, fun hubuffer => ?_⟩
      · rw [hlast, cyclesOver, hcycles, Nat.add_sub_cancel, hstep.cycles]
      · exact step_congr h.running hsame hmoved hucpu (hubuffer.trans hrecord.symm)
    code := fun u hucpu hbytes => by
      -- The processor that starts there, with the record that the run leaves behind.
      let v : Board β := { u with cpu := { u.cpu with fetched := (s.after (k - 1)).cpu.fetched } }
      have hv : s.cpu.MovedOn (k - 1) v.cpu :=
        ⟨hucpu.regs, hucpu.iff1, hucpu.iff2, hucpu.im, hucpu.halted, hucpu.invalidOpcodes⟩
      have hstep : (s.after (k - 1)).step = v.stepIn s.bus := by
        rw [step_eq_execute (hmoved.halted.trans h.running)]
        exact congrArg Decoding.execute
          ((sameCode_begin (u := v) hbus hmoved hv rfl hbytes).decoded_eq hbus)
      refine ⟨?_, fun hubuffer => ?_⟩
      · rw [hstep]
        exact stepIn_alike (t := v) (u := u) rfl hv hucpu s.bus
      · have hfound : v.found = u.found :=
          found_congr (t := v) rfl hv hucpu (hubuffer.trans hrecord.symm)
        rw [hstep, stepIn, stepIn, hfound] }

/-- `INC HL` behind two prefixes. -/
def incBehindTwo : List UInt8 :=
  [0xDD, 0xFD, 0x23]

theorem prefixRun_incBehindTwo : (codeBoard incBehindTwo).PrefixRun 2 := by
  have hcode : (codeBoard incBehindTwo).HasCode incBehindTwo := hasCode_codeBoard (by decide)
  constructor
  · rfl
  · decide
  · intro i hi
    obtain rfl | rfl : i = 0 ∨ i = 1 := by omega
    · rw [hcode 0 0xDD rfl]
      rfl
    · rw [hcode 1 0xFD rfl]
      rfl
  · rw [hcode 2 0x23 rfl]
    rfl

theorem stepsThrough_incBehindTwo :
    (codeBoard incBehindTwo).PrefixRun 2 ∧ (codeBoard incBehindTwo).StepsThrough 2 :=
  ⟨prefixRun_incBehindTwo, stepsThrough prefixRun_incBehindTwo⟩

end Board

end EightBit.Z80
