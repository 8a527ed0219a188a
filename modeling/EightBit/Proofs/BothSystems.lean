import EightBit.Proofs.Cpm.Tracing
import EightBit.Proofs.GameBoy.Tracing
import EightBit.Proofs.Sm83.KeptFlags
import EightBit.Proofs.Sm83.UnusedFlags
import EightBit.Proofs.Z80.KeptFlags
import EightBit.Proofs.Z80.UnusedFlags

/-!
# What both systems have in common

The processors have in common what becomes of the flags that an instruction does not report to, and
of the bits of the flag register that are no flags. The machines around them have in common that
they may record what they execute, in a log that keeps all of it or only the first instructions.
Each statement pairs what its processor or machine has been shown to do with what the other has.

## Main results

* `showsFlags_run`: the flag registers are seen as they are, in every run from power-on.
* `keepsFlags_step`: the flags that are kept, for every instruction.
* `logs_only_observe`: runs of the machines with and without a log.
-/

namespace EightBit

/-- **The bits of the flag register that do not exist.** In every run of either processor, over any
surroundings, none of them is set, so that the pair `AF` consists of the accumulator and the flag
register as they are, and a push stores exactly these. -/
theorem showsFlags_run :
    (∀ {β : Type} [Sm83.Bus β] (boot : Sm83.BootState) (bus : β) (calls : List (Sm83.Call β)),
      ((Sm83.Board.powerOn boot bus).performAll calls).ShowsFlags) ∧
    (∀ {β : Type} [Z80.Bus β] (bus : β) (calls : List (Z80.Call β)),
      ((Z80.Board.powerOn bus).performAll calls).ShowsFlags) :=
  ⟨Sm83.Board.showsFlags_performAll, Z80.Board.showsFlags_performAll⟩

/-- **Flags that are kept.** On every board of either processor, over any surroundings, a step keeps
the flags that its instruction does not report to, and a step that executes nothing keeps the whole
flag register, as the acceptance of an interrupt does. -/
theorem keepsFlags_step :
    (∀ {β : Type} [Sm83.Bus β] (s : Sm83.Board β), s.KeepsFlags) ∧
    (∀ {β : Type} [Z80.Bus β] (s : Z80.Board β), s.KeepsFlags) :=
  ⟨Sm83.Board.keepsFlags, Z80.Board.keepsFlags⟩

/-- **Recording only observes.** Whatever handheld or CP/M machine a run starts from, without a log,
with a log of all instructions and with a log of the first ones it is in the same state after every
number of steps, and every step takes as long; the full log has one entry for each instruction
executed, and the limited one has the first of them and has counted the others. -/
theorem logs_only_observe :
    (∀ (m : GameBoy.Machine) (n limit : Nat),
      GameBoy.Machine.recorder.Observes GameBoy.Machine.SameState GameBoy.Machine.Fetches
        (m.recording false none) (m.recording true none) (m.recording true (some limit)) n limit) ∧
    (∀ (m : Cpm.Machine) (n limit : Nat),
      Cpm.Machine.recorder.Observes Cpm.Machine.SameState Cpm.Machine.Fetches
        (m.recording false none) (m.recording true none) (m.recording true (some limit)) n limit) :=
  ⟨GameBoy.Machine.observes_recording, Cpm.Machine.observes_recording⟩

end EightBit
