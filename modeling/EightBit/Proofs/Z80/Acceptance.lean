import EightBit.Proofs.Z80.Control
import EightBit.Proofs.Z80.UnusedFlags

/-!
# Accepting interrupts

A latched non-maskable interrupt is accepted whenever the processor is given the occasion. Otherwise
a maskable one is, if interrupts are enabled, the last step was not an `EI`, and the line is high.
Accepting an interrupt saves the program counter, and changes nothing of the processor but what the
entry sequence needs: the other registers, the flags and the interrupt mode are kept.

## Main definitions

* `Cpu.entered`, `Board.saved`: the processor at its handler, and the surroundings with the program
  counter on the stack.
* `Cpu.LeadsTo`: where a maskable interrupt leads, and what it costs.
* `Board.AnswersInterrupts`: when interrupts are accepted, and what that leads to.

## Main results

* `Board.answersInterrupts`: the three outcomes, on every board.
* `Board.remembers_performAll`: interrupts are never enabled by the first flip-flop alone.
-/

namespace EightBit.Z80

/-- The processor when it has accepted an interrupt: about to execute the handler at `vector`, with
the maskable interrupts disabled. -/
def Cpu.entered (cpu : Cpu) (vector : UInt16) (iff2 : Bool) : Cpu :=
  { cpu with
    regs := { cpu.regs.refresh with pc := vector, sp := cpu.regs.sp - 2 }
    iff1 := false
    iff2 := iff2
    halted := false }

/-- A processor that has been given the byte `data` on acceptance is led to `vector`, where `bus` is
memory with the program counter saved. -/
structure Cpu.LeadsTo {β : Type} [Bus β] (cpu : Cpu) (bus : β) (data : UInt8) (vector : UInt16)
    (cycles : Nat) : Prop where
  /-- In mode 0 to the restart that the byte encodes, or as in mode 1 if it encodes none. -/
  mode0 : cpu.im = 0 →
    vector = (if data &&& 0xC7 = 0xC7 then (data &&& 0x38).toUInt16 else 0x0038) ∧ cycles = 13
  /-- In mode 1 to a fixed address. -/
  mode1 : cpu.im = 1 → vector = 0x0038 ∧ cycles = 13
  /-- In mode 2 to the address in the table, the low byte first. -/
  mode2 : cpu.im = 2 →
    vector = word (read bus (word cpu.regs.i (data &&& 0xFE) + 1))
      (read bus (word cpu.regs.i (data &&& 0xFE))) ∧ cycles = 19

namespace Board

section

variable {β : Type} [Bus β]

/-- The surroundings `bus` with the program counter on the stack, the low byte first. -/
def saved (s : Board β) (bus : β) : β :=
  write (write bus (s.cpu.regs.sp - 1) (hiByte s.cpu.regs.pc)) (s.cpu.regs.sp - 2)
    (loByte s.cpu.regs.pc)

/-- A maskable interrupt is accepted, with the surroundings `bus` after the latch of the
non-maskable ones has been looked at. -/
structure AcceptsMaskable (s : Board β) (bus : β) (vector : UInt16) (cycles : Nat) : Prop where
  cost : s.handleInterrupts.1 = some cycles
  cpu : s.handleInterrupts.2.cpu = s.cpu.entered vector false
  leadsTo : s.cpu.LeadsTo (s.saved (acknowledge bus).2) (acknowledge bus).1 vector cycles
  /-- Beside the push there are notices only. -/
  bus : ∃ notices : List Notice, s.handleInterrupts.2.bus =
    notices.foldl (fun bus n => note n bus) (s.saved (acknowledge bus).2)

/-- What the interrupt logic does with the processor, where `bus` are the surroundings after the
latch of the non-maskable interrupts has been looked at. -/
structure AnswersInterrupts (s : Board β) (latched : Bool) (bus : β) : Prop where
  nonMaskable : latched = true → s.handleInterrupts =
    (some 11, ⟨s.cpu.entered 0x0066 s.cpu.iff1, note (.z80NonMaskable s.cpu.regs.pc) (s.saved bus)⟩)
  maskable : latched = false → s.cpu.iff1 = true → s.cpu.eiShadow = false → intLine bus = true →
    ∃ vector cycles, s.AcceptsMaskable bus vector cycles
  declines : latched = false →
    ¬(s.cpu.iff1 = true ∧ s.cpu.eiShadow = false ∧ intLine bus = true) →
    s.handleInterrupts = (none, ⟨s.cpu, bus⟩)

end

/-! ### The entry sequence -/

section

variable {β : Type} [Bus β] (s : Board β)

/-- The vector is the one that the mode and the byte say. -/
theorem leadsTo_intVector (data : UInt8) :
    s.cpu.LeadsTo s.bus data (s.intVector data) (intCycles s.cpu.im) where
  mode0 h := by
    simp only [intVector, intCycles, isRestart, h, beq_iff_eq]
    exact ⟨rfl, rfl⟩
  mode1 h := by
    rw [intVector, intCycles, h]
    exact ⟨rfl, rfl⟩
  mode2 h := by
    rw [intVector, intCycles, h]
    exact ⟨rfl, rfl⟩

/-- Accepting a maskable interrupt is the entry sequence, and notices of it. -/
theorem acceptInt_eq :
    ∃ notices : List Notice, s.acceptInt =
      ⟨s.cpu.entered
          (intVector ⟨s.cpu, s.saved (acknowledge s.bus).2⟩ (acknowledge s.bus).1) false,
        notices.foldl (fun bus n => note n bus) (s.saved (acknowledge s.bus).2)⟩ := by
  unfold acceptInt
  dsimp only
  split
  · exact ⟨[_, _], rfl⟩
  · exact ⟨[_], rfl⟩

/-- The interrupt logic accepts what is due, and otherwise changes nothing. -/
theorem answersInterrupts : s.AnswersInterrupts (takeNmi s.bus).1 (takeNmi s.bus).2 where
  nonMaskable h := by
    rw [handleInterrupts]
    dsimp only
    rw [if_pos h]
    rfl
  maskable h hiff1 hshadow hline := by
    have haccepts : acceptsInt ⟨s.cpu, (takeNmi s.bus).2⟩ = true := by
      rw [acceptsInt, hiff1, hshadow, hline]
      rfl
    have houtcome : s.handleInterrupts =
        (some (intCycles s.cpu.im), acceptInt ⟨s.cpu, (takeNmi s.bus).2⟩) := by
      rw [handleInterrupts]
      dsimp only
      rw [if_neg (Bool.eq_false_iff.1 h), if_pos haccepts]
    obtain ⟨notices, hboard⟩ := acceptInt_eq ⟨s.cpu, (takeNmi s.bus).2⟩
    rw [hboard] at houtcome
    refine ⟨_, _, congrArg Prod.fst houtcome, congrArg (·.2.cpu) houtcome, ?_, notices,
      congrArg (·.2.bus) houtcome⟩
    exact leadsTo_intVector ⟨s.cpu, s.saved (acknowledge (takeNmi s.bus).2).2⟩ _
  declines h hnot := by
    have haccepts : acceptsInt ⟨s.cpu, (takeNmi s.bus).2⟩ = false := by
      refine Bool.eq_false_iff.2 fun haccepts => hnot ?_
      simpa [acceptsInt, and_assoc] using haccepts
    rw [handleInterrupts]
    dsimp only
    rw [if_neg (Bool.eq_false_iff.1 h), if_neg (Bool.eq_false_iff.1 haccepts)]

end

/-! ### Runs -/

section

variable {β : Type} [Bus β] {s : Board β}

/-- A call keeps the relation of the flip-flops. -/
theorem remembers_perform (h : s.cpu.control.Remembers) (c : Call β) :
    (s.perform c).cpu.control.Remembers := by
  cases c with
  | step =>
    rw [perform, control_step]
    exact h.step _
  | interrupt =>
    rw [perform, control_handleInterrupts]
    exact h.interrupt _ _
  | reset => exact fun hon => absurd hon nofun
  | _ => exact h

/-- So does a sequence of calls. -/
theorem remembers_performAll (h : s.cpu.control.Remembers) (calls : List (Call β)) :
    (s.performAll calls).cpu.control.Remembers :=
  List.foldlRecOn (motive := fun t : Board β => t.cpu.control.Remembers) calls perform h
    fun _ ht c _ => remembers_perform ht c

/-- **Accepting interrupts.** On every board a non-maskable interrupt is accepted if one is latched,
and otherwise a maskable one if interrupts are enabled outside the shadow of an `EI` and the line is
high; and in every run from power-on, interrupts are enabled by both flip-flops or not at all. -/
theorem answersInterrupts_and_remembers (s : Board β) (bus : β) (calls : List (Call β)) :
    s.AnswersInterrupts (takeNmi s.bus).1 (takeNmi s.bus).2 ∧
      (((powerOn bus).performAll calls).cpu.iff1 = true →
        ((powerOn bus).performAll calls).cpu.iff2 = true) := by
  have hpowerOn : (powerOn bus).cpu.control.Remembers := fun hon => absurd hon nofun
  exact ⟨s.answersInterrupts, remembers_performAll hpowerOn calls⟩

end

end Board

end EightBit.Z80
