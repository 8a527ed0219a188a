import EightBit.Proofs.Memory
import EightBit.Proofs.Z80.Length
import EightBit.Z80.Interrupt

/-!
# The shadow of EI

An `EI` lets the instruction after it execute before a maskable interrupt is accepted. The shadow
lasts for one step, and a step is an instruction, except where an index prefix stands in front of
another one: such a prefix is a step of its own, after which the instruction is not complete yet.
This module finds out what that means for an interrupt line that is high all the time.

## Main definitions

* `Board.occasion`: the board whenever the processor may accept an interrupt, from a step on.
* `Board.Unfinished`: the steps so far have not completed the instruction after the first one.
* `Board.HoldsOff`: no interrupt is accepted as long as that is so.
* `Board.Inside`: an address inside the encoding of an instruction, behind its first byte.

## Main results

* `Board.not_endsInPrefix_of_not_startsPrefixRun`: elsewhere a step completes the instruction.
* `Board.accepts_of_startsPrefixRun`: an interrupt is accepted in the middle of a run of prefixes.
* `Board.holdsOff_iff_not_startsPrefixRun`: exactly a run of prefixes breaks the shadow.
-/

namespace EightBit.Z80

namespace Stepped

variable {β : Type}

/-- The step executed `EI`. -/
def Enables (r : Stepped β) : Prop := ∃ m, r.executed = some (m, .ei)

/-- The step executed an index prefix, so that an instruction is not complete yet. -/
def EndsInPrefix (r : Stepped β) : Prop :=
  ∃ m i, r.executed = some (m, i) ∧ i.isIndexPrefix = true

end Stepped

namespace Board

section

variable {β : Type} [Bus β]

/-- The board whenever the processor may accept an interrupt: after a step, and then after every
further one. -/
def occasion (s : Board β) : Nat → Board β
  | 0 => s.step.board
  | n + 1 => (s.occasion n).handleInterrupts.2.step.board

/-- The `n` steps after the first one have not completed the instruction after it. -/
def Unfinished (s : Board β) (n : Nat) : Prop :=
  ∀ k < n, (s.occasion k).handleInterrupts.2.step.EndsInPrefix

/-- No interrupt is accepted after a step before the complete instruction after it has been
executed. -/
def HoldsOff (s : Board β) : Prop :=
  ∀ n, s.Unfinished n → (s.occasion n).handleInterrupts.1 = none

/-- An address inside the encoding of the instruction at the program counter, with all its prefixes,
behind the first byte. -/
inductive Inside : Board β → UInt16 → Prop
  /-- Less than its length behind its first byte. -/
  | within {s : Board β} {a : UInt16} (hone : ¬s.StartsPrefixRun) (hpos : a ≠ s.cpu.regs.pc)
      (hlt : a - s.cpu.regs.pc < s.length) : Inside s a
  /-- The second prefix of a run. -/
  | next {s : Board β} {a : UInt16} (hrun : s.StartsPrefixRun) (ha : a = s.cpu.regs.pc + 1) :
      Inside s a
  /-- Behind the second prefix. -/
  | later {s : Board β} {a : UInt16} (hrun : s.StartsPrefixRun) (h : Inside s.step.board a) :
      Inside s a

variable {s : Board β}

/-! ### Steps -/

/-- An executed `EI` enables interrupts, is in its own shadow, and touches nothing outside. -/
theorem step_of_enables (h : s.step.Enables) :
    s.step.board.cpu.iff1 = true ∧ s.step.board.cpu.eiShadow = true ∧
      s.step.board.cpu.halted = false ∧ s.step.board.bus = s.bus := by
  obtain ⟨m, hm⟩ := h
  have hrun := halted_of_executed hm
  have hei : s.found.instruction = .ei := by
    rw [executed_of_running hrun] at hm
    exact congrArg Prod.snd (Option.some.inj hm)
  obtain ⟨pc, r, bytes, m', a, hboard⟩ := s.started.begin.fetchedFrom_decoded
  have hstep : s.step.board = (s.found.board.execute .ei).settle := by
    rw [step_eq_execute hrun, ← hei]
    rfl
  rw [hstep, found, hboard]
  exact ⟨rfl, rfl, hrun, rfl⟩

/-- A step at a run of prefixes executes a prefix, ends the shadow of an `EI`, and has no other
effect but to move the program counter on. -/
theorem step_of_startsPrefixRun (h : s.StartsPrefixRun) (hrun : s.cpu.halted = false) :
    s.step.EndsInPrefix ∧ s.step.board.cpu.iff1 = s.cpu.iff1 ∧
      s.step.board.cpu.eiShadow = false ∧ s.step.board.cpu.regs.pc = s.cpu.regs.pc + 1 ∧
      s.step.board.bus = s.bus := by
  have hpart : (Decode.primary s.nextByte).instruction.isIndexPrefix = true :=
    (Decode.isIndexPrefix_primary _).trans h.1
  rw [step_eq_of_startsPrefixRun h hrun]
  exact ⟨⟨_, _, rfl, hpart⟩, rfl, rfl, rfl, rfl⟩

/-- Elsewhere a step completes an instruction. -/
theorem not_endsInPrefix_of_not_startsPrefixRun (h : ¬s.StartsPrefixRun) :
    ¬s.step.EndsInPrefix := by
  rintro ⟨m, i, hi, hpart⟩
  rw [executed_of_running (halted_of_executed hi)] at hi
  obtain ⟨-, rfl⟩ := Prod.mk.inj (Option.some.inj hi)
  exact h (isIndexPrefix_decoded_iff (s := s.started.begin).1 hpart)

/-- The address behind an instruction that does not transfer control is not inside of it. -/
theorem not_inside_of_not_transfers (h : ¬s.StartsPrefixRun) (hrun : s.cpu.halted = false)
    (hi : s.found.instruction.transfers = false) : ¬s.Inside s.step.board.cpu.regs.pc := by
  rw [pc_step hrun hi]
  rintro (⟨-, -, hlt⟩ | ⟨hstarts, -⟩ | ⟨hstarts, -⟩)
  · rw [UInt16.add_comm, UInt16.add_sub_cancel] at hlt
    exact UInt16.lt_irrefl _ hlt
  · exact h hstarts
  · exact h hstarts

end

/-! ### A line that is high -/

variable {s : Board PortBus}

/-- Without a latched non-maskable interrupt only the line counts. -/
theorem handleInterrupts_of_nmi (hnmi : s.bus.nmi = false) :
    s.handleInterrupts =
      if s.acceptsInt then (some (intCycles s.cpu.im), s.acceptInt) else (none, s) := by
  have htake : takeNmi s.bus = (false, s.bus) := by
    obtain ⟨cpu, flat, inputs, nmi, int, ack⟩ := s
    obtain rfl : nmi = false := hnmi
    rfl
  rw [handleInterrupts, htake]
  rfl

/-- In the shadow nothing happens. -/
theorem handleInterrupts_of_eiShadow (hnmi : s.bus.nmi = false) (h : s.cpu.eiShadow = true) :
    s.handleInterrupts = (none, s) := by
  rw [handleInterrupts_of_nmi hnmi, acceptsInt, h]
  simp

/-- An accepted interrupt leaves the program counter on top of the stack. -/
theorem stackTop_acceptInt : s.acceptInt.stackTop = s.cpu.regs.pc := by
  have htop := s.bus.flat.readWord_pushWord s.cpu.regs.sp s.cpu.regs.pc
  unfold acceptInt
  dsimp only
  split <;> exact htop

/-- So does a non-maskable one. -/
theorem stackTop_handleInterrupts (h : s.handleInterrupts.1 ≠ none) :
    s.handleInterrupts.2.stackTop = s.cpu.regs.pc := by
  let t : Board PortBus := { s with bus := { s.bus with nmi := false } }
  have hcases : s.handleInterrupts =
      if s.bus.nmi then (some nmiCycles, t.acceptNmi)
      else if t.acceptsInt then (some (intCycles t.cpu.im), t.acceptInt) else (none, t) := rfl
  rw [hcases] at h ⊢
  split at h
  next hnmi =>
    rw [if_pos hnmi]
    exact s.bus.flat.readWord_pushWord s.cpu.regs.sp s.cpu.regs.pc
  next hnmi =>
    rw [if_neg hnmi]
    split at h
    next haccepts =>
      rw [if_pos haccepts]
      exact stackTop_acceptInt
    next => exact absurd rfl h

/-- The interrupt accepted after the step that follows returns into the instruction that follows. -/
def AcceptsInside (s : Board PortBus) : Prop :=
  (s.occasion 1).handleInterrupts.1 ≠ none ∧
    s.step.board.Inside (s.occasion 1).handleInterrupts.2.stackTop

section

variable (hei : s.step.Enables) (hnmi : s.bus.nmi = false)
include hei hnmi

/-- After `EI` no interrupt is accepted, whatever follows. -/
theorem handleInterrupts_step_of_enables :
    s.step.board.handleInterrupts = (none, s.step.board) := by
  obtain ⟨-, hshadow, -, hbus⟩ := step_of_enables hei
  exact handleInterrupts_of_eiShadow ((congrArg PortBus.nmi hbus).trans hnmi) hshadow

/-- The next occasion is that after the step that follows. -/
theorem occasion_one_of_enables : s.occasion 1 = s.step.board.step.board := by
  rw [occasion, occasion, handleInterrupts_step_of_enables hei hnmi]

theorem unfinished_one_iff_of_enables : s.Unfinished 1 ↔ s.step.board.step.EndsInPrefix := by
  simp [Unfinished, occasion, handleInterrupts_step_of_enables hei hnmi]

/-- In front of a run of prefixes, an interrupt is accepted behind the first of them. -/
theorem accepts_of_startsPrefixRun (hint : s.bus.int = true)
    (hrun : s.step.board.StartsPrefixRun) :
    s.Unfinished 1 ∧ (s.occasion 1).handleInterrupts.1 ≠ none ∧
      (s.occasion 1).handleInterrupts.2.stackTop = s.step.board.cpu.regs.pc + 1 := by
  obtain ⟨hiff, -, hhalted, hbus⟩ := step_of_enables hei
  obtain ⟨hpart, hiff', hshadow, hpc, hbus'⟩ := step_of_startsPrefixRun hrun hhalted
  have hflags : s.step.board.step.board.bus = s.bus := hbus'.trans hbus
  have haccepts : s.step.board.step.board.acceptsInt = true := by
    rw [acceptsInt, hiff', hiff, hshadow, hflags]
    exact hint
  refine ⟨(unfinished_one_iff_of_enables hei hnmi).2 hpart, ?_⟩
  rw [occasion_one_of_enables hei hnmi,
    handleInterrupts_of_nmi ((congrArg PortBus.nmi hflags).trans hnmi), if_pos haccepts, ← hpc]
  exact ⟨Option.some_ne_none _, stackTop_acceptInt⟩

/-- Elsewhere no interrupt is accepted until the instruction is complete. -/
theorem holdsOff_of_not_startsPrefixRun (hone : ¬s.step.board.StartsPrefixRun) : s.HoldsOff := by
  intro n hn
  cases n with
  | zero =>
    rw [occasion, handleInterrupts_step_of_enables hei hnmi]
  | succ n =>
    -- The step after `EI` has completed an instruction.
    have hfirst : s.step.board.step.EndsInPrefix :=
      (unfinished_one_iff_of_enables hei hnmi).1 fun k hk => hn k (by omega)
    exact absurd hfirst (not_endsInPrefix_of_not_startsPrefixRun hone)

/-- **The shadow of `EI`.** With the interrupt line high, no interrupt is accepted after an `EI`
until the complete instruction that follows has been executed, unless that instruction begins with
more than one index prefix. In that case the interrupt is accepted behind the first prefix, and
returns into the middle of the instruction. Otherwise only an instruction that jumps into itself
makes it return there. -/
theorem holdsOff_iff_not_startsPrefixRun (hint : s.bus.int = true) :
    (s.HoldsOff ↔ ¬s.step.board.StartsPrefixRun) ∧
      (s.step.board.StartsPrefixRun → s.AcceptsInside) ∧
      (s.AcceptsInside →
        s.step.board.StartsPrefixRun ∨ s.step.board.found.instruction.transfers = true) := by
  refine ⟨⟨fun hholds hrun => ?_, holdsOff_of_not_startsPrefixRun hei hnmi⟩, fun hrun => ?_,
    fun hinside => ?_⟩
  · obtain ⟨hunfinished, haccepts, -⟩ := accepts_of_startsPrefixRun hei hnmi hint hrun
    exact haccepts (hholds 1 hunfinished)
  · obtain ⟨-, haccepts, htop⟩ := accepts_of_startsPrefixRun hei hnmi hint hrun
    exact ⟨haccepts, .next hrun htop⟩
  · obtain ⟨haccepts, hin⟩ := hinside
    obtain ⟨-, -, hhalted, -⟩ := step_of_enables hei
    rw [stackTop_handleInterrupts haccepts, occasion_one_of_enables hei hnmi] at hin
    by_cases hone : s.step.board.StartsPrefixRun
    · exact .inl hone
    · refine .inr (Bool.of_not_eq_false fun htransfers => ?_)
      exact not_inside_of_not_transfers hone hhalted htransfers hin

end

/-! ### A run of prefixes after EI -/

/-- A step at an `EI` without prefixes. -/
theorem step_of_ei (hrun : s.cpu.halted = false) (hop : s.nextByte = 0xFB) :
    s.step.Enables ∧ s.step.board.cpu.regs.pc = s.cpu.regs.pc + 1 := by
  obtain ⟨hexecuted, hboard⟩ := step_of_plain hrun hop (by decide)
  refine ⟨⟨_, hexecuted⟩, ?_⟩
  rw [hboard]
  rfl

/-- `EI` and `LD IX,$1234` behind a superfluous prefix, with the interrupt line high. -/
def eiPrefixRun : Board PortBus where
  cpu := .create
  bus := { PortBus.ofFlat (.ofMemory (Memory.blank.store 0 [0xFB, 0xDD, 0xDD, 0x21, 0x34, 0x12])
    .silent) with int := true }

theorem load_eiPrefixRun :
    eiPrefixRun.load 0 = 0xFB ∧ eiPrefixRun.load 1 = 0xDD ∧ eiPrefixRun.load 2 = 0xDD := by
  have hload (a : UInt16) : eiPrefixRun.load a =
      [0xFB, 0xDD, 0xDD, 0x21, 0x34, 0x12].getD a.toNat 0 :=
    Memory.read_store_zero_blank a (by decide)
  exact ⟨hload 0, hload 1, hload 2⟩

theorem enables_eiPrefixRun : eiPrefixRun.step.Enables :=
  (step_of_ei rfl load_eiPrefixRun.1).1

theorem startsPrefixRun_eiPrefixRun : eiPrefixRun.step.board.StartsPrefixRun := by
  obtain ⟨hei, hfirst, hsecond⟩ := load_eiPrefixRun
  obtain ⟨henables, hpc⟩ := step_of_ei (s := eiPrefixRun) rfl hei
  obtain ⟨-, -, -, hbus⟩ := step_of_enables henables
  rw [StartsPrefixRun, nextByte, load, load, hpc, hbus]
  exact ⟨congrArg isIndexPrefix hfirst, congrArg isIndexPrefix hsecond⟩

/-- An interrupt returns into `LD IX,$1234`. -/
theorem acceptsInside_eiPrefixRun :
    eiPrefixRun.step.Enables ∧ eiPrefixRun.bus.nmi = false ∧ eiPrefixRun.bus.int = true ∧
      ¬eiPrefixRun.HoldsOff ∧ eiPrefixRun.AcceptsInside := by
  obtain ⟨hholds, hinside, -⟩ := holdsOff_iff_not_startsPrefixRun enables_eiPrefixRun rfl rfl
  exact ⟨enables_eiPrefixRun, rfl, rfl, fun h => hholds.1 h startsPrefixRun_eiPrefixRun,
    hinside startsPrefixRun_eiPrefixRun⟩

/-- The shadow of `EI` may end in the middle of an instruction. -/
theorem not_forall_holdsOff :
    ¬∀ s : Board PortBus, s.step.Enables → s.bus.nmi = false → s.bus.int = true →
      s.HoldsOff ∧ ¬s.AcceptsInside := by
  intro h
  obtain ⟨hunfinished, haccepts, -⟩ :=
    accepts_of_startsPrefixRun enables_eiPrefixRun rfl rfl startsPrefixRun_eiPrefixRun
  obtain ⟨hholds, -⟩ := h eiPrefixRun enables_eiPrefixRun rfl rfl
  exact haccepts (hholds 1 hunfinished)

end Board

end EightBit.Z80
