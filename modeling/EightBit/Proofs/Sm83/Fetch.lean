import EightBit.Proofs.Sm83.Control

/-!
# Single instructions of a program

What a step does when a certain opcode is at the program counter and the processor executes with the
latch of the `HALT` bug clear: the flip-flops, the registers and the surroundings after it. Programs
are followed by these lemmas one instruction at a time.

## Main definitions

* `Board.Executes`: the processor executes, with the latch clear.
* `Board.StepsTo`: a step and what it leads to, with the surroundings unchanged.

## Main results

* `Board.step_of_opcode`: a step that executes a given instruction.
* `Board.Executes.stepsTo`: such a step with the latch clear.
* `Board.Executes.step_ei`, `Board.Executes.step_halt`, `Board.Executes.step_stop`,
  `Board.Executes.step_loadSp`, `Board.Executes.step_jp`: `EI`, `HALT`, `STOP`, a load of the stack
  pointer and a jump.
-/

namespace EightBit.Sm83.Board

variable {β : Type}

/-! ### Parts of an instruction -/

/-- The board at the end of an executed instruction. -/
def retire (s : Board β) : Board β :=
  { s with cpu := s.uncharge.cpu.advanceSchedule }

@[simp] theorem bus_retire (s : Board β) : s.retire.bus = s.bus := rfl

@[simp] theorem regs_retire (s : Board β) : s.retire.cpu.regs = s.cpu.regs := by
  unfold retire Cpu.advanceSchedule
  dsimp only
  split <;> rfl

theorem bus_scheduleEnable (s : Board β) : s.scheduleEnable.bus = s.bus := by
  unfold scheduleEnable
  split <;> rfl

theorem regs_scheduleEnable (s : Board β) :
    s.scheduleEnable.cpu.regs = s.cpu.regs := by
  unfold scheduleEnable
  split <;> rfl

variable [Bus β] {s : Board β}

theorem bus_halt (s : Board β) : s.halt.bus = s.bus := by
  unfold halt
  split <;> rfl

theorem regs_halt (s : Board β) : s.halt.cpu.regs = s.cpu.regs := by
  unfold halt
  split <;> rfl

/-! ### Fetching with the latch clear -/

theorem regs_skip (h : s.cpu.haltBug = false) :
    s.skip.cpu.regs = { s.cpu.regs with pc := s.cpu.regs.pc + 1 } := by
  unfold skip
  dsimp only
  rw [if_neg (Bool.eq_false_iff.1 h)]

theorem haltBug_skip (s : Board β) : s.skip.cpu.haltBug = false :=
  congrArg Control.haltBug s.control_skip

theorem nextByte_skip (h : s.cpu.haltBug = false) :
    s.skip.nextByte = s.load (s.cpu.regs.pc + 1) := by
  rw [nextByte, load, bus_skip, regs_skip h, load]

theorem nextWord_eq (h : s.cpu.haltBug = false) :
    s.nextWord = word (s.load (s.cpu.regs.pc + 1)) (s.load s.cpu.regs.pc) := by
  rw [nextWord, nextByte_skip h, nextByte]

theorem regs_skipWord (h : s.cpu.haltBug = false) :
    s.skipWord.cpu.regs = { s.cpu.regs with pc := s.cpu.regs.pc + 2 } := by
  rw [skipWord, regs_skip s.haltBug_skip, regs_skip h]
  simp only [UInt16.add_assoc]
  rfl

@[simp] theorem bus_skipWord (s : Board β) : s.skipWord.bus = s.bus := by
  rw [skipWord, bus_skip, bus_skip]

/-! ### A step with a given opcode -/

/-- The processor executes, and the latch of the `HALT` bug is clear. -/
structure Executes (s : Board β) : Prop where
  halted : s.cpu.halted = false
  stopped : s.cpu.stopped = false
  haltBug : s.cpu.haltBug = false

/-- A step leads to the flip-flops `k` and the registers `r`, and leaves the surroundings alone. -/
structure StepsTo (s : Board β) (k : Control) (r : Registers) : Prop where
  control : s.step.board.cpu.control = k
  regs : s.step.board.cpu.regs = r
  bus : s.step.board.bus = s.bus

/-- An opcode other than the prefix is all that decoding fetches. -/
theorem decoded_of_opcode {i : Instruction} (hi : (Decode.primary s.nextByte).instruction = i)
    (hcb : i ≠ .prefixCb) : s.decoded = (Decode.primary s.nextByte, s.skip) := by
  subst hi
  unfold decoded
  dsimp only
  split
  next h => exact absurd h hcb
  next => rfl

/-- Behind the prefix a second opcode is fetched. -/
theorem decoded_of_cb (h : s.nextByte = 0xCB) :
    s.decoded.1.instruction = (Decode.cb s.skip.nextByte).instruction ∧
      s.decoded.2 = s.skip.skip := by
  rw [decoded, h]
  exact ⟨rfl, rfl⟩

/-- The instruction at the program counter, given by its opcode. -/
theorem current_of_opcode {i : Instruction} (hi : (Decode.primary s.nextByte).instruction = i)
    (hcb : i ≠ .prefixCb) : s.current = i := by
  rw [current, decoded_of_opcode (s := s.begin) hi hcb]
  exact hi

/-- A step of an instruction without a prefix: its opcode is fetched, and it is executed. -/
theorem step_of_opcode (hh : s.cpu.halted = false) (hs : s.cpu.stopped = false) {i : Instruction}
    (hi : (Decode.primary s.nextByte).instruction = i) (hcb : i ≠ .prefixCb) :
    s.step.board = (s.uncharge.begin.skip.execute i).retire := by
  rw [step_of_awake hh hs, executeNext, decoded_of_opcode (s := s.uncharge.begin) hi hcb]
  subst hi
  rfl

namespace Executes

omit [Bus β] in
theorem of_control {ime : Bool} {schedule : ImeSchedule}
    (h : s.cpu.control = ⟨ime, false, false, false, schedule⟩) : s.Executes where
  halted := congrArg Control.halted h
  stopped := congrArg Control.stopped h
  haltBug := congrArg Control.haltBug h

/-- A step is determined by what its instruction does to the registers and the surroundings. -/
theorem stepsTo (hs : s.Executes) {i : Instruction} {r : Registers}
    (hi : (Decode.primary s.nextByte).instruction = i) (hcb : i ≠ .prefixCb)
    (hr : (s.uncharge.begin.skip.execute i).cpu.regs = r)
    (hbus : (s.uncharge.begin.skip.execute i).bus = s.bus) :
    s.StepsTo (s.cpu.control.execute s.pending i).advance r where
  control := by
    rw [control_step, current_of_opcode hi hcb, Control.step_of_awake hs.halted hs.stopped,
      Control.release_eq_self hs.haltBug]
  regs := by rw [step_of_opcode hs.halted hs.stopped hi hcb, regs_retire, hr]
  bus := by rw [step_of_opcode hs.halted hs.stopped hi hcb, bus_retire, hbus]

theorem regs_skip (hs : s.Executes) :
    s.uncharge.begin.skip.cpu.regs = { s.cpu.regs with pc := s.cpu.regs.pc + 1 } :=
  Board.regs_skip (s := s.uncharge.begin) hs.haltBug

/-- The word after the opcode. -/
theorem nextWord (hs : s.Executes) :
    s.uncharge.begin.skip.nextWord =
      word (s.load (s.cpu.regs.pc + 2)) (s.load (s.cpu.regs.pc + 1)) := by
  rw [nextWord_eq (haltBug_skip _), hs.regs_skip, load, load, bus_skip, UInt16.add_assoc]
  rfl

theorem regs_skipWord (hs : s.Executes) :
    s.uncharge.begin.skip.skipWord.cpu.regs = { s.cpu.regs with pc := s.cpu.regs.pc + 3 } := by
  rw [Board.regs_skipWord (haltBug_skip _), hs.regs_skip]
  simp only [UInt16.add_assoc]
  rfl

theorem step_ei (hs : s.Executes) (h : s.nextByte = 0xFB) :
    s.StepsTo (s.cpu.control.execute s.pending .ei).advance
      { s.cpu.regs with pc := s.cpu.regs.pc + 1 } :=
  hs.stepsTo (by rw [h]; rfl) (by simp) ((regs_scheduleEnable _).trans hs.regs_skip)
    ((bus_scheduleEnable _).trans (bus_skip _))

theorem step_halt (hs : s.Executes) (h : s.nextByte = 0x76) :
    s.StepsTo (s.cpu.control.execute s.pending .halt).advance
      { s.cpu.regs with pc := s.cpu.regs.pc + 1 } :=
  hs.stepsTo (by rw [h]; rfl) (by simp) ((regs_halt _).trans hs.regs_skip)
    ((bus_halt _).trans (bus_skip _))

/-- `STOP` skips the byte after the opcode. -/
theorem step_stop (hs : s.Executes) (h : s.nextByte = 0x10) :
    s.StepsTo (s.cpu.control.execute s.pending .stop).advance
      { s.cpu.regs with pc := s.cpu.regs.pc + 2 } := by
  have hfetched : s.uncharge.begin.skip.cpu.haltBug = false := haltBug_skip _
  refine hs.stepsTo (by rw [h]; rfl) (by simp) ?_ ((bus_skip _).trans (bus_skip _))
  calc (s.uncharge.begin.skip.execute .stop).cpu.regs
      = s.uncharge.begin.skip.skip.cpu.regs := rfl
    _ = { s.cpu.regs with pc := s.cpu.regs.pc + 2 } := by
      rw [Board.regs_skip hfetched, hs.regs_skip]
      simp only [UInt16.add_assoc]
      rfl

/-- A load of the stack pointer from the word after the opcode. -/
theorem step_loadSp (hs : s.Executes) (h : s.nextByte = 0x31) {lo hi : UInt8}
    (hlo : s.load (s.cpu.regs.pc + 1) = lo) (hhi : s.load (s.cpu.regs.pc + 2) = hi) :
    s.StepsTo s.cpu.control.advance
      { s.cpu.regs with pc := s.cpu.regs.pc + 3, sp := word hi lo } := by
  refine hs.stepsTo (i := .loadPairImm .sp) (by rw [h]; rfl) (by simp) ?_ ?_
  · calc (s.uncharge.begin.skip.execute (.loadPairImm .sp)).cpu.regs
        = { s.uncharge.begin.skip.skipWord.cpu.regs with
            sp := s.uncharge.begin.skip.nextWord } := rfl
      _ = _ := by rw [hs.regs_skipWord, hs.nextWord, hlo, hhi]
  · exact (bus_skipWord _).trans (bus_skip _)

/-- A jump to the word after the opcode. -/
theorem step_jp (hs : s.Executes) (h : s.nextByte = 0xC3) {lo hi : UInt8}
    (hlo : s.load (s.cpu.regs.pc + 1) = lo) (hhi : s.load (s.cpu.regs.pc + 2) = hi) :
    s.StepsTo s.cpu.control.advance { s.cpu.regs with pc := word hi lo } := by
  refine hs.stepsTo (i := .jp) (by rw [h]; rfl) (by simp) ?_ ?_
  · calc (s.uncharge.begin.skip.execute .jp).cpu.regs
        = { s.uncharge.begin.skip.skipWord.cpu.regs with
            pc := s.uncharge.begin.skip.nextWord } := rfl
      _ = _ := by rw [hs.regs_skipWord, hs.nextWord, hlo, hhi]
  · exact (bus_skipWord _).trans (bus_skip _)

end Executes

end EightBit.Sm83.Board
