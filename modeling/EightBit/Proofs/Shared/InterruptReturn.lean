import EightBit.Proofs.Sm83.Return
import EightBit.Proofs.Z80.Return

/-!
# Interrupts that leave no trace

On both processors an interrupt whose handler returns at once leaves the program as it was: its
registers, its place, and whether it accepts interrupts. The stack pointer may be anywhere, also at
either end of the address space, as long as the program counter is not saved over the handler.

## Main results

* `returnedTo_of_interrupt`: an interrupt of the SM83, and both kinds of the Z80.
-/

namespace EightBit

/-- **There and back.** An interrupt that is due is accepted, and a handler that returns leads back
to the program: `RETI` on the SM83, `RETN` for a non-maskable interrupt of the Z80, and `EI` with
`RETI` for a maskable one, where no interrupt is accepted between the two although the line stays
high. -/
theorem returnedTo_of_interrupt (s : Sm83.Board FlatBus) (t : Z80.Board Z80.PortBus) :
    (s.HandlerReturns →
      s.handleInterrupts.1 = some 20 ∧ s.ReturnedTo s.handleInterrupts.2.step.board) ∧
    (t.NmiReturns →
      t.handleInterrupts.1 = some 11 ∧ t.ReturnedTo t.handleInterrupts.2.step.board) ∧
    (t.IntReturns →
      t.handleInterrupts.1 = some 13 ∧
      t.handleInterrupts.2.step.board.handleInterrupts =
        (none, t.handleInterrupts.2.step.board) ∧
      t.ReturnedTo t.handleInterrupts.2.step.board.step.board ∧
      t.handleInterrupts.2.step.board.step.board.cpu.iff1 = true ∧
      t.handleInterrupts.2.step.board.step.board.cpu.iff2 = true) := by
  refine ⟨fun h => ⟨?_, Sm83.Board.returnedTo_step h⟩,
    fun h => ⟨(Z80.Board.enters_of_nmi h.nmi).1, Z80.Board.returnedTo_step_of_nmi h⟩, fun h => ?_⟩
  · rw [Sm83.Board.handleInterrupts_of_accepts (s.accepts_iff.2 h.due)]
    rfl
  · obtain ⟨hnone, hreturned, hiff2⟩ := Z80.Board.returnedTo_step_of_int h
    exact ⟨(Z80.Board.enters_of_int h).1, hnone, hreturned, hreturned.iff1.trans h.iff1, hiff2⟩

/-- A handler of each kind. -/
theorem returnedTo_of_interrupt_boards :
    Sm83.Board.retiBoard.ReturnedTo Sm83.Board.retiBoard.handleInterrupts.2.step.board ∧
      Z80.Board.retnBoard.ReturnedTo Z80.Board.retnBoard.handleInterrupts.2.step.board ∧
      Z80.Board.eiRetiBoard.ReturnedTo
        Z80.Board.eiRetiBoard.handleInterrupts.2.step.board.step.board := by
  obtain ⟨hreti, hretn, -⟩ := returnedTo_of_interrupt Sm83.Board.retiBoard Z80.Board.retnBoard
  obtain ⟨-, -, hint⟩ := returnedTo_of_interrupt Sm83.Board.retiBoard Z80.Board.eiRetiBoard
  obtain ⟨-, -, hei, -⟩ := hint Z80.Board.intReturns_eiRetiBoard
  exact ⟨(hreti Sm83.Board.handlerReturns_retiBoard).2,
    (hretn Z80.Board.nmiReturns_retnBoard).2, hei⟩

end EightBit
