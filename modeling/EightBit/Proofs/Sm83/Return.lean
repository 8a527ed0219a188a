import EightBit.Proofs.Sm83.Fetch
import EightBit.Proofs.Sm83.Service
import EightBit.Proofs.Sm83.UnusedFlags

/-!
# Returning from a handler

A handler that consists of a `RETI` is as good as none: the program goes on where it was
interrupted, with all its registers, and interrupts are enabled again. What is left of the interrupt
are two bytes below the stack pointer and the request that has been withdrawn. Whether the
processor was halted, or had latched the `HALT` bug, makes no difference.

## Main definitions

* `Board.HandlerReturns`: an interrupt is due, and its handler is a `RETI` clear of the stack.
* `Board.ReturnedTo`: the program has been interrupted, and goes on.

## Main results

* `Board.step_of_reti`: what `RETI` does.
* `Board.returnedTo_step`: a dispatch and the step after it.
-/

namespace EightBit.Sm83.Board

section

variable {β : Type} [Bus β] {s : Board β}

/-- A fetch moves the program counter at most. -/
theorem stackTop_skip (s : Board β) : s.skip.stackTop = s.stackTop := by
  obtain ⟨pc, h⟩ := s.regs_skip_eq
  rw [stackTop, stackTop, bus_skip, h]

/-- `RETI` takes the program counter off the stack and enables interrupts, and no more. -/
theorem step_of_reti (hh : s.cpu.halted = false) (hs : s.cpu.stopped = false)
    (hop : s.nextByte = 0xD9) :
    s.step.board.cpu.regs = { s.cpu.regs with pc := s.stackTop, sp := s.cpu.regs.sp + 2 } ∧
      s.step.board.cpu.ime = true ∧ s.step.board.bus = s.bus := by
  have hreti : (Decode.primary s.nextByte).instruction = .reti := by rw [hop]; rfl
  have hboard := step_of_opcode hh hs hreti (by simp)
  obtain ⟨pc, hskip⟩ := s.uncharge.begin.regs_skip_eq
  have htop : s.uncharge.begin.skip.stackTop = s.stackTop := stackTop_skip _
  refine ⟨?_, ?_, ?_⟩
  · calc s.step.board.cpu.regs
        = (s.uncharge.begin.skip.execute .reti).cpu.regs := by rw [hboard, regs_retire]
      _ = { s.uncharge.begin.skip.cpu.regs with
            pc := s.uncharge.begin.skip.stackTop
            sp := s.uncharge.begin.skip.cpu.regs.sp + 2 } := rfl
      _ = { s.cpu.regs with pc := s.stackTop, sp := s.cpu.regs.sp + 2 } := by
        rw [htop, hskip]
        rfl
  · have hcurrent : s.current = .reti := current_of_opcode hreti (by simp)
    have hcontrol := s.control_step
    rw [hcurrent, Control.step_of_awake hh hs] at hcontrol
    exact congrArg Control.ime hcontrol
  · rw [hboard, bus_retire]
    exact bus_skip _

end

/-- An interrupt is due, its handler is a `RETI`, and the program counter is saved clear of it and
of the interrupt registers. -/
structure HandlerReturns (s : Board FlatBus) : Prop where
  due : s.InterruptDue
  stack : s.StackClear
  reti : s.load s.handleInterrupts.2.cpu.regs.pc = 0xD9
  upper : s.cpu.regs.sp - 1 ≠ s.handleInterrupts.2.cpu.regs.pc
  lower : s.cpu.regs.sp - 2 ≠ s.handleInterrupts.2.cpu.regs.pc

/-- The program that `s` was interrupted in goes on at `t`, with interrupts enabled. The request of
the most urgent interrupt has been withdrawn. -/
structure ReturnedTo (s t : Board FlatBus) : Prop where
  regs : t.cpu.regs = s.cpu.regs
  ime : t.cpu.ime = true
  requests : ∃ k, IsLowestBit s.pendingBits k ∧
    ∀ j, hasBit (t.load requestAddress) j = (hasBit (s.load requestAddress) j && j != k)
  elsewhere : ∀ a, a ≠ requestAddress → a ≠ s.cpu.regs.sp - 1 → a ≠ s.cpu.regs.sp - 2 →
    t.load a = s.load a

variable {s t : Board FlatBus} {k : Nat}

/-- An interrupt that is due enters its handler. -/
theorem exists_entersHandler (hs : s.StackClear) (hdue : s.InterruptDue) :
    ∃ k, EntersHandler s s.handleInterrupts.2 k := by
  rw [handleInterrupts_of_accepts (s.accepts_iff.2 hdue)]
  exact entersHandler_dispatch hs hdue.pending

/-- Handlers begin outside the request register. -/
theorem pc_ne_requestAddress (h : EntersHandler s t k) : t.cpu.regs.pc ≠ requestAddress := by
  have hvectors : ∀ k < 5, 0x40 + 8 * UInt16.ofNat k ≠ requestAddress := by decide
  have hpc : t.cpu.regs.pc = 0x40 + 8 * UInt16.ofNat k := congrArg (·.regs.pc) h.cpu
  rw [hpc]
  exact hvectors k (Interrupts.lt_of_hasBit_known h.lowest.hasBit)

/-- From the handler a `RETI` leads back. -/
theorem returnedTo_of_entersHandler (h : EntersHandler s t k) (hop : t.nextByte = 0xD9) :
    s.ReturnedTo t.step.board := by
  have hhalted : t.cpu.halted = false := congrArg Cpu.halted h.cpu
  have hstopped : t.cpu.stopped = false := congrArg Cpu.stopped h.cpu
  obtain ⟨hregs, hime, hbus⟩ := step_of_reti hhalted hstopped hop
  have hload (a : UInt16) : t.step.board.load a = t.load a := by rw [load, hbus, load]
  refine ⟨?_, hime, ⟨k, h.lowest, fun j => ?_⟩, fun a hr hu hl => ?_⟩
  · rw [hregs, h.stackTop, h.cpu]
    dsimp only
    rw [UInt16.sub_add_cancel]
  · rw [hload, h.requests]
  · rw [hload, h.elsewhere a hr hu hl]

/-- A dispatch and the step after it lead back to the program. -/
theorem returnedTo_step (h : s.HandlerReturns) :
    s.ReturnedTo s.handleInterrupts.2.step.board := by
  obtain ⟨k, henters⟩ := exists_entersHandler h.stack h.due
  refine returnedTo_of_entersHandler henters ?_
  rw [nextByte, henters.elsewhere _ (pc_ne_requestAddress henters) h.upper.symm h.lower.symm,
    h.reti]

/-- The timer and the link port are pending on a halted board, and the handler of the timer is a
`RETI`. -/
def retiBoard : Board FlatBus :=
  { timerBoard with bus := .ofMemory (timerMemory.write 0x0050 0xD9) .silent }

theorem load_retiBoard {a : UInt16} (h : (0x0050 : UInt16) ≠ a) :
    retiBoard.load a = timerBoard.load a :=
  Memory.read_write_of_ne _ _ h

theorem handlerReturns_retiBoard : retiBoard.HandlerReturns := by
  have hpending : retiBoard.pendingBits = 0x0C := by
    rw [pendingBits, load_retiBoard (by decide), load_retiBoard (by decide)]
    exact pendingBits_timerBoard
  have hclear : retiBoard.StackClear := ⟨by decide, by decide, by decide, by decide⟩
  have hdue : retiBoard.InterruptDue := ⟨by rw [hpending]; decide, rfl, .inl rfl⟩
  obtain ⟨k, henters⟩ := exists_entersHandler hclear hdue
  have htimer : IsLowestBit retiBoard.pendingBits 2 := by
    rw [hpending]
    exact ⟨by decide, by decide⟩
  obtain rfl := htimer.unique henters.lowest
  have hpc : retiBoard.handleInterrupts.2.cpu.regs.pc = 0x0050 :=
    congrArg (·.regs.pc) henters.cpu
  have hreti : retiBoard.load 0x0050 = 0xD9 := Memory.read_write_self ..
  refine ⟨hdue, hclear, ?_, ?_, ?_⟩ <;> rw [hpc]
  · exact hreti
  · decide
  · decide

end EightBit.Sm83.Board
