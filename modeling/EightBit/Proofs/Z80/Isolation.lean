import EightBit.Proofs.Z80.Control
import EightBit.Proofs.Z80.LookUps
import EightBit.Proofs.Z80.UnusedFlags

/-!
# Register isolation

Apart from the program counter and the refresh counter, a step changes no register but through the
instruction that it executes: the alternate registers in an exchange, an index register behind its
prefix, and the interrupt registers in the instructions about interrupts. Which register stands for
`HL` is hidden in the state of the decoder, but only while an instruction executes.

## Main definitions

* `Board.IsolatesRegisters`: the steps that change a register other than the main ones.
* `Cpu.IsNeutral`, `Board.Reachable`: a decoder at rest, and the states that a driver can reach.

## Main results

* `Board.execute_ne_of_step_ne`: what a step changes the instruction has changed.
* `Board.Reachable.isNeutral`: the decoder is at rest between steps.
* `Board.isolatesRegisters_and_isNeutral`: every step, and every state that can be reached.
-/

namespace EightBit.Z80

/-! ### The control registers -/

namespace Control

variable {k : Control} {i : Instruction}

/-- The interrupt mode is reached by `IM`. -/
theorem exists_im_of_step_ne (h : (k.step i).im ≠ k.im) :
    k.halted = false ∧ ∃ mode, i = .im mode := by
  rw [step] at h
  split at h
  next => exact absurd rfl h
  next hrun =>
    refine ⟨Bool.eq_false_iff.2 hrun, ?_⟩
    cases i with
    | im mode => exact ⟨mode, rfl⟩
    | _ => exact absurd rfl h

/-- The flip-flops are reached by the instructions that enable or disable interrupts, and by the
returns from a handler. -/
theorem mem_of_step_ne (h : (k.step i).iff1 ≠ k.iff1 ∨ (k.step i).iff2 ≠ k.iff2) :
    k.halted = false ∧ i ∈ [.ei, .di, .retn, .reti] := by
  rw [step] at h
  split at h
  next => exact absurd ⟨rfl, rfl⟩ (not_and_or.2 h)
  next hrun =>
    refine ⟨Bool.eq_false_iff.2 hrun, ?_⟩
    cases i with
    | ei | di | retn | reti => decide
    | _ => exact absurd ⟨rfl, rfl⟩ (not_and_or.2 h)

end Control

/-! ### Steps -/

namespace IndexMode

variable {b : UInt8}

theorem isPrefix_ix_iff : IsPrefix .ix b ↔ b = 0xDD := by
  simp [IsPrefix]

theorem isPrefix_iy_iff : IsPrefix .iy b ↔ b = 0xFD := by
  simp [IsPrefix]

end IndexMode

namespace Board

variable {β : Type} [Bus β] {s : Board β}

/-- What a step changes, other than the program counter and the refresh counter, the instruction
has changed. -/
theorem execute_ne_of_step_ne {γ : Type} {f : Registers → γ}
    (hf : ∀ q pc r, f { q with pc := pc, r := r } = f q)
    (h : f s.step.board.cpu.regs ≠ f s.cpu.regs) :
    s.cpu.halted = false ∧
      f (s.found.board.execute s.found.instruction).cpu.regs ≠ f s.found.board.cpu.regs := by
  rcases Bool.eq_false_or_eq_true s.cpu.halted with hhalted | hrun
  · rw [step_of_halted hhalted] at h
    exact absurd (hf s.cpu.regs s.cpu.regs.pc s.cpu.regs.refresh.r) h
  · have hregs := (found_of_executed (executed_of_running hrun)).2
    obtain ⟨pc, r, bytes, m, a, hfound⟩ := s.started.begin.fetchedFrom_decoded
    have hfetched : f s.found.board.cpu.regs = f s.cpu.regs := by
      rw [found, hfound]
      exact hf s.cpu.regs pc r
    refine ⟨hrun, ?_⟩
    rwa [hfetched, ← hregs]

/-- A step that changes an alternate register executes an exchange. -/
theorem executed_of_alt_ne (h : s.step.board.cpu.regs.alt ≠ s.cpu.regs.alt) :
    ∃ m, s.step.executed = some (m, .exAf) ∨ s.step.executed = some (m, .exx) := by
  obtain ⟨hrun, hne⟩ := execute_ne_of_step_ne (f := Registers.alt) (fun _ _ _ => rfl) h
  refine ⟨s.found.board.cpu.mode, ?_⟩
  rw [executed_of_running hrun]
  by_cases haf : s.found.instruction = .exAf
  · exact .inl (by rw [haf])
  by_cases hx : s.found.instruction = .exx
  · exact .inr (by rw [hx])
  · exact absurd (s.found.board.alt_execute haf hx) hne

/-- A step that changes `I` executes `LD I,A`. -/
theorem executed_of_i_ne (h : s.step.board.cpu.regs.i ≠ s.cpu.regs.i) :
    ∃ m, s.step.executed = some (m, .loadIA) := by
  obtain ⟨hrun, hne⟩ := execute_ne_of_step_ne (f := Registers.i) (fun _ _ _ => rfl) h
  refine ⟨s.found.board.cpu.mode, ?_⟩
  rw [executed_of_running hrun]
  by_cases hia : s.found.instruction = .loadIA
  · rw [hia]
  · exact absurd (s.found.board.i_execute hia) hne

/-- A step that changes an index register begins with its prefix, which takes effect. -/
theorem isPrefix_of_spared_ne {f : Registers → UInt16} {m : IndexMode} (hm : m ≠ .hl)
    (hf : ∀ q pc r, f { q with pc := pc, r := r } = f q)
    (hspared : ∀ {q r : Registers} {n},
      (q.sheltered n).2.2.2 = (r.sheltered n).2.2.2 → n ≠ m → f q = f r)
    (h : f s.step.board.cpu.regs ≠ f s.cpu.regs) :
    m.IsPrefix s.nextByte ∧ s.load (s.cpu.regs.pc + 1) ∉ [0xDD, 0xED, 0xFD] := by
  obtain ⟨-, hne⟩ := execute_ne_of_step_ne hf h
  have hmode : prefixMode s.nextByte (s.load (s.cpu.regs.pc + 1)) = m := by
    rw [← s.mode_found]
    refine Decidable.not_not.1 fun hother => hne ?_
    exact hspared (s.found.board.spared_execute _) hother
  obtain ⟨hfirst, hnext, hed⟩ := isPrefix_of_prefixMode hmode hm
  have hindex := mt (isIndexPrefix_iff _).2 (Bool.eq_false_iff.1 hnext)
  exact ⟨hfirst, by simp_all⟩

theorem nextByte_of_ix_ne (h : s.step.board.cpu.regs.ix ≠ s.cpu.regs.ix) :
    s.nextByte = 0xDD ∧ s.load (s.cpu.regs.pc + 1) ∉ [0xDD, 0xED, 0xFD] := by
  obtain ⟨hm, hnext⟩ := isPrefix_of_spared_ne (f := Registers.ix) (m := .ix) (by decide)
    (fun _ _ _ => rfl) Registers.ix_eq_of_sheltered h
  exact ⟨IndexMode.isPrefix_ix_iff.1 hm, hnext⟩

theorem nextByte_of_iy_ne (h : s.step.board.cpu.regs.iy ≠ s.cpu.regs.iy) :
    s.nextByte = 0xFD ∧ s.load (s.cpu.regs.pc + 1) ∉ [0xDD, 0xED, 0xFD] := by
  obtain ⟨hm, hnext⟩ := isPrefix_of_spared_ne (f := Registers.iy) (m := .iy) (by decide)
    (fun _ _ _ => rfl) Registers.iy_eq_of_sheltered h
  exact ⟨IndexMode.isPrefix_iy_iff.1 hm, hnext⟩

/-- Behind an index prefix the exchanges with the alternate registers do what they do without. -/
theorem step_behind_exchange {m : IndexMode} (hrun : s.cpu.halted = false)
    (hm : m.IsPrefix s.nextByte)
    (hop : s.load (s.cpu.regs.pc + 1) = 0x08 ∨ s.load (s.cpu.regs.pc + 1) = 0xD9) :
    Stepped.Behind .hl s.step (s.pastPrefix .hl).step := by
  refine behind_of_execute hrun hm ?_ ?_ fun t bytes a _ => ⟨bytes, ?_⟩
  · rcases hop with hop | hop <;> rw [hop] <;> decide
  · rcases hop with hop | hop <;> rw [hop] <;> rfl
  · rcases hop with hop | hop <;> rw [hop]
    · rfl
    · exact execute_behind_exchange m bytes a (.inr rfl)

/-- The steps that change a register other than the main ones. -/
structure IsolatesRegisters (s : Board β) : Prop where
  /-- The alternate registers change in the two exchanges. -/
  alt : s.step.board.cpu.regs.alt ≠ s.cpu.regs.alt →
    ∃ m, s.step.executed = some (m, .exAf) ∨ s.step.executed = some (m, .exx)
  /-- Whatever the index mode, these exchange the main registers. -/
  exAf : ∀ m, s.step.executed = some (m, .exAf) →
    ∃ pc r, s.step.board.cpu.regs = { s.cpu.regs.exchangeAf with pc := pc, r := r }
  exx : ∀ m, s.step.executed = some (m, .exx) →
    ∃ pc r, s.step.board.cpu.regs = { s.cpu.regs.exchangeAll with pc := pc, r := r }
  /-- Behind an index prefix they do what they do without it. -/
  prefixed : s.cpu.halted = false → isIndexPrefix s.nextByte = true →
    s.load (s.cpu.regs.pc + 1) = 0x08 ∨ s.load (s.cpu.regs.pc + 1) = 0xD9 →
    Stepped.Behind .hl s.step (s.pastPrefix .hl).step
  /-- An index register changes behind its prefix, if neither another prefix nor `ED` follows. -/
  ix : s.step.board.cpu.regs.ix ≠ s.cpu.regs.ix →
    s.nextByte = 0xDD ∧ s.load (s.cpu.regs.pc + 1) ∉ [0xDD, 0xED, 0xFD]
  iy : s.step.board.cpu.regs.iy ≠ s.cpu.regs.iy →
    s.nextByte = 0xFD ∧ s.load (s.cpu.regs.pc + 1) ∉ [0xDD, 0xED, 0xFD]
  /-- `I` changes in `LD I,A`. -/
  i : s.step.board.cpu.regs.i ≠ s.cpu.regs.i → ∃ m, s.step.executed = some (m, .loadIA)
  /-- The interrupt mode changes in `IM`. -/
  im : s.step.board.cpu.im ≠ s.cpu.im → ∃ m mode, s.step.executed = some (m, .im mode)
  /-- The interrupt flip-flops change in `EI`, `DI`, `RETN` and `RETI`. -/
  iff : s.step.board.cpu.iff1 ≠ s.cpu.iff1 ∨ s.step.board.cpu.iff2 ≠ s.cpu.iff2 →
    ∃ m, ∃ i ∈ [Instruction.ei, .di, .retn, .reti], s.step.executed = some (m, i)

theorem isolatesRegisters (s : Board β) : s.IsolatesRegisters where
  alt := executed_of_alt_ne
  exAf m h := by
    obtain ⟨pc, r, bytes, m', a, hfound⟩ := s.started.begin.fetchedFrom_decoded
    rw [(found_of_executed h).2, found, hfound]
    exact ⟨pc, r, rfl⟩
  exx m h := by
    obtain ⟨pc, r, bytes, m', a, hfound⟩ := s.started.begin.fetchedFrom_decoded
    rw [(found_of_executed h).2, found, hfound]
    exact ⟨pc, r, rfl⟩
  prefixed hrun hindex hop := by
    obtain ⟨m, hm⟩ := IndexMode.exists_isPrefix hindex
    exact step_behind_exchange hrun hm hop
  ix := nextByte_of_ix_ne
  iy := nextByte_of_iy_ne
  i := executed_of_i_ne
  im h := by
    have hstep : (s.cpu.control.step s.found.instruction).im ≠ s.cpu.control.im := by
      rw [← control_step]
      exact h
    obtain ⟨hrun, mode, hi⟩ := Control.exists_im_of_step_ne hstep
    exact ⟨_, mode, by rw [executed_of_running hrun, hi]⟩
  iff h := by
    have hstep : (s.cpu.control.step s.found.instruction).iff1 ≠ s.cpu.control.iff1 ∨
        (s.cpu.control.step s.found.instruction).iff2 ≠ s.cpu.control.iff2 := by
      rw [← control_step]
      exact h
    obtain ⟨hrun, hi⟩ := Control.mem_of_step_ne hstep
    exact ⟨_, _, hi, executed_of_running hrun⟩

end Board

/-! ### The decoder between steps -/

/-- The decoder is at rest: no index mode, no address of an operand and no cycles are left of an
instruction. -/
structure Cpu.IsNeutral (cpu : Cpu) : Prop where
  mode : cpu.mode = .hl
  indexAddress : cpu.indexAddress = none
  extraCycles : cpu.extraCycles = 0

namespace Board

variable {β : Type} [Bus β]

/-- The states that a driver can reach, which may replace the surroundings and all of the processor
that can be seen from outside. -/
inductive Reachable : Board β → Prop
  | powerOn (bus : β) : Reachable (powerOn bus)
  | step {s : Board β} (h : s.Reachable) : Reachable s.step.board
  | interrupt {s : Board β} (h : s.Reachable) : Reachable s.handleInterrupts.2
  | reset {s : Board β} (h : s.Reachable) : Reachable { s with cpu := s.cpu.reset }
  | change {s : Board β} (h : s.Reachable) (regs : Registers) (iff1 iff2 : Bool) (im : UInt8)
      (halted : Bool) (bus : β) :
    Reachable {
      cpu := { s.cpu with regs := regs, iff1 := iff1, iff2 := iff2, im := im, halted := halted }
      bus := bus }

variable {s : Board β}

/-- A step leaves the decoder at rest. -/
theorem isNeutral_step (h : s.cpu.IsNeutral) : s.step.board.cpu.IsNeutral := by
  rcases Bool.eq_false_or_eq_true s.cpu.halted with hhalted | hrun
  · rw [step_of_halted hhalted]
    exact ⟨h.mode, h.indexAddress, rfl⟩
  · rw [step_eq_execute hrun]
    exact ⟨rfl, rfl, rfl⟩

theorem isNeutral_handleInterrupts (h : s.cpu.IsNeutral) :
    s.handleInterrupts.2.cpu.IsNeutral := by
  have hkept {t : Board β} (hmode : t.cpu.mode = s.cpu.mode)
      (haddress : t.cpu.indexAddress = s.cpu.indexAddress)
      (hcycles : t.cpu.extraCycles = s.cpu.extraCycles) : t.cpu.IsNeutral :=
    ⟨hmode.trans h.mode, haddress.trans h.indexAddress, hcycles.trans h.extraCycles⟩
  rw [handleInterrupts]
  dsimp only
  split
  · exact hkept rfl rfl rfl
  · split <;> exact hkept rfl rfl rfl

/-- The decoder is at rest in every state that can be reached. -/
theorem Reachable.isNeutral (h : s.Reachable) : s.cpu.IsNeutral := by
  induction h with
  | powerOn bus => exact ⟨rfl, rfl, rfl⟩
  | step _ ih => exact isNeutral_step ih
  | interrupt _ ih => exact isNeutral_handleInterrupts ih
  | reset _ _ => exact ⟨rfl, rfl, rfl⟩
  | change _ _ _ _ _ _ _ ih => exact ⟨ih.mode, ih.indexAddress, ih.extraCycles⟩

/-- **Register isolation.** Registers other than the main ones are changed only by the instructions
that are there to change them, and between steps the decoder is at rest. -/
theorem isolatesRegisters_and_isNeutral (s : Board β) :
    s.IsolatesRegisters ∧ (s.Reachable → s.cpu.IsNeutral) :=
  ⟨s.isolatesRegisters, Reachable.isNeutral⟩

end Board

end EightBit.Z80
