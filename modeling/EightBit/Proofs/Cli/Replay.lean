import EightBit.Cli.Execution
import EightBit.Proofs.Cpm.Loading
import EightBit.Proofs.Cpm.Steps
import EightBit.Proofs.GameBoy.Clocks
import EightBit.Proofs.GameBoy.SingleSteps
import Mathlib.Algebra.Ring.Nat

/-!
# Replaying a run

A run can be made again with the number of its steps as the limit, and has the same outcome then:
the steps are the same ones, whether they were counted against a limit, made until the program was
finished, or made for frames. A report tells that number, with one exception. A Game Boy that runs
for frames does not count its steps, and reports none.

## Main definitions

* `RunConfig.RunsFrames`: the exception.
* `RunConfig.calls`, `programCosts`, `stepCosts`: the steps of a run, as the cycles they report.
* `RunConfig.Fits`, `reportOf`: the images that a run accepts, and its report on them.
* `Report.SameOutcome`, `Replays`: runs that agree in everything but the number of steps.

## Main results

* `runImage_eq_ok_iff`: what a run reports is what there is after its steps.
* `cycles_reportOf`: a report tells the cycles of all steps.
* `stepCosts_replay`, `sameOutcome_replay`: a run made again with the number of its steps as the
  limit.
* `replays_steps_iff`: when a report tells that number.
-/

namespace EightBit.Cli

/-! ### The steps of a run -/

/-- The run is one of frames, and there are some. -/
def RunConfig.RunsFrames (c : RunConfig) : Prop :=
  c.system = .gameBoy ∧ c.maxSteps = none ∧ 0 < c.frames

/-- What the run asks of a Game Boy. -/
def RunConfig.calls (c : RunConfig) : List GameBoy.Machine.Call :=
  match c.maxSteps with
  | some n => List.replicate n .step
  | none => List.replicate c.frames .frame

/-- The cycles that each step of a CP/M machine reports, of at most `n` steps as long as the program
goes on. -/
def programCosts : (n : Nat) → Cpm.Machine → List Nat
  | 0, _ => []
  | n + 1, m => if m.finished then [] else m.step.1 :: programCosts n m.step.2

/-- The Game Boy at the start of a run. -/
def startGameBoy [GameBoy.NoiseSource] (c : RunConfig) (image : List UInt8) (journal : Journal) :
    GameBoy.Machine :=
  .powerOn { trace := c.trace, traceLimit := some traceLimit } journal image

/-- The CP/M machine at the start of a run. -/
def startProgram (c : RunConfig) (image : List UInt8) (journal : Journal) : Cpm.Machine :=
  (Cpm.Machine.create { trace := c.trace, traceLimit := some traceLimit } journal).load image

/-- The cycles that each step of a run reports. -/
def stepCosts [GameBoy.NoiseSource] (c : RunConfig) (image : List UInt8) (journal : Journal) :
    List Nat :=
  match c.system with
  | .gameBoy => ((startGameBoy c image journal).starts c.calls).map fun m => m.step.1
  | .z80 => programCosts (c.maxSteps.getD defaultSteps) (startProgram c image journal)

/-- The report on a Game Boy. -/
def gameBoyReport (steps : Nat) (m : GameBoy.Machine) : Report where
  output := m.serialOutput
  steps := steps
  cycles := m.totalCycles
  finished := false
  trace := m.trace.toList

/-- The report on a CP/M machine. -/
def programReport (steps : Nat) (m : Cpm.Machine) : Report where
  output := m.consoleBytes
  steps := steps
  cycles := m.totalCycles
  finished := m.finished
  trace := m.trace.toList

/-! #### Game Boy -/

section GameBoy

open GameBoy

theorem stepGameBoy_eq (n : Nat) (m : Machine) : stepGameBoy n m = m.after n := by
  induction n generalizing m with
  | zero => rfl
  | succ n ih => rw [stepGameBoy, ih, Machine.after_succ]

theorem run_replicate_step (n : Nat) (m : Machine) :
    (m.run (List.replicate n .step)).2 = m.after n := by
  induction n generalizing m with
  | zero => rfl
  | succ n ih => exact (ih m.step.2).trans (m.after_succ n).symm

theorem length_starts_replicate_step (n : Nat) (m : Machine) :
    (m.starts (List.replicate n .step)).length = n := by
  induction n generalizing m with
  | zero => rfl
  | succ n ih =>
    rw [List.replicate_succ, Machine.starts, List.length_append, ih]
    exact Nat.add_comm 1 n

theorem frameGameBoy_eq (n : Nat) (m : Machine) :
    frameGameBoy n m = (m.run (List.replicate n .frame)).2 := by
  induction n generalizing m with
  | zero => rfl
  | succ n ih => exact ih _

/-- The bookkeeping between frames is not reported. -/
theorem gameBoyReport_run (steps : Nat) (m : Machine) (cs : List Machine.Call) :
    gameBoyReport steps (m.run cs).2 = gameBoyReport steps (m.after (m.starts cs).length) := by
  obtain ⟨n, hrun⟩ := m.exists_run_eq cs
  rw [hrun]
  rfl

theorem stepCycles_eq_sum (ms : List Machine) :
    Machine.stepCycles ms = (ms.map fun m => m.step.1).sum := by
  induction ms with
  | nil => rfl
  | cons m ms ih => rw [Machine.stepCycles_cons, ih, List.map_cons, List.sum_cons]

end GameBoy

/-! #### CP/M -/

section Program

open Cpm

/-- Steps are counted as they are made. -/
theorem stepProgram_eq (n steps : Nat) (m : Machine) :
    stepProgram n steps m =
      (steps + (programCosts n m).length, m.after (programCosts n m).length) := by
  induction n generalizing steps m with
  | zero => rfl
  | succ n ih =>
    rw [stepProgram, programCosts]
    split
    · rfl
    · rw [ih, List.length_cons, Machine.after_succ, Nat.add_right_comm, Nat.add_assoc]

theorem totalCycles_programCosts (n : Nat) (m : Machine) :
    (m.after (programCosts n m).length).totalCycles = m.totalCycles + (programCosts n m).sum := by
  induction n generalizing m with
  | zero => rfl
  | succ n ih =>
    rw [programCosts]
    split
    · rfl
    · rw [List.length_cons, Machine.after_succ, ih, Machine.totalCycles_step, List.sum_cons,
        Nat.add_assoc]

/-- The steps that a run makes are a limit that it keeps to exactly. -/
theorem programCosts_length (n : Nat) (m : Machine) :
    programCosts (programCosts n m).length m = programCosts n m := by
  induction n generalizing m with
  | zero => rfl
  | succ n ih =>
    rw [programCosts]
    split
    next => rfl
    next h => rw [List.length_cons, programCosts, if_neg h, ih]

end Program

/-! ### What a run reports -/

/-- The image is no longer than the place that the system has for it. -/
def RunConfig.Fits (c : RunConfig) (image : List UInt8) : Prop :=
  match c.system with
  | .gameBoy => image.length ≤ GameBoy.romWindowSize
  | .z80 => image.length ≤ Cpm.programSpace

/-- The report on a run of an image that fits: on the machine after the steps of the run. -/
def reportOf [GameBoy.NoiseSource] (c : RunConfig) (image : List UInt8) (journal : Journal) :
    Report :=
  let steps := (stepCosts c image journal).length
  match c.system with
  | .gameBoy => gameBoyReport (c.maxSteps.getD 0) ((startGameBoy c image journal).after steps)
  | .z80 => programReport steps ((startProgram c image journal).after steps)

/-- Two reports agree in everything but the number of steps. -/
structure Report.SameOutcome (r r' : Report) : Prop where
  output : r.output = r'.output
  cycles : r.cycles = r'.cycles
  finished : r.finished = r'.finished
  trace : r.trace = r'.trace

section

variable [GameBoy.NoiseSource] (c : RunConfig) (image : List UInt8) (journal : Journal)

variable {image} in
/-- What is noted at the end of a run is not part of its report. -/
theorem runGameBoy_of_fits (h : image.length ≤ GameBoy.romWindowSize) :
    (runGameBoy c image journal).1 =
      .ok (gameBoyReport (c.maxSteps.getD 0) ((startGameBoy c image journal).run c.calls).2) := by
  rw [runGameBoy, GameBoy.Machine.loadRom_eq, if_pos h, RunConfig.calls]
  cases c.maxSteps with
  | none =>
    change Except.ok (gameBoyReport 0 (frameGameBoy c.frames (startGameBoy c image journal))) = _
    rw [frameGameBoy_eq]
    rfl
  | some n =>
    change Except.ok (gameBoyReport n (stepGameBoy n (startGameBoy c image journal))) = _
    rw [stepGameBoy_eq, ← run_replicate_step]
    rfl

omit [GameBoy.NoiseSource] in
variable {image} in
theorem runProgram_of_fits (h : image.length ≤ Cpm.programSpace) :
    (runProgram c image journal).1 =
      .ok (programReport
        (stepProgram (c.maxSteps.getD defaultSteps) 0 (startProgram c image journal)).1
        (stepProgram (c.maxSteps.getD defaultSteps) 0 (startProgram c image journal)).2) := by
  rw [runProgram, Cpm.Machine.loadCom_eq, if_pos h]
  rfl

/-- A run starts if the image fits, and then has a report. -/
theorem runImage_eq_ok_iff {r : Report} :
    (runImage c image journal).1 = .ok r ↔ c.Fits image ∧ reportOf c image journal = r := by
  cases hsystem : c.system with
  | gameBoy =>
    simp only [runImage, reportOf, RunConfig.Fits, stepCosts, hsystem, List.length_map]
    by_cases hfits : image.length ≤ GameBoy.romWindowSize
    · rw [runGameBoy_of_fits c journal hfits, gameBoyReport_run, Except.ok.injEq,
        and_iff_right hfits]
    · rw [runGameBoy, GameBoy.Machine.loadRom_eq, if_neg hfits]
      exact iff_of_false nofun fun h => hfits h.1
  | z80 =>
    simp only [runImage, reportOf, RunConfig.Fits, stepCosts, hsystem]
    by_cases hfits : image.length ≤ Cpm.programSpace
    · rw [runProgram_of_fits c journal hfits, stepProgram_eq, Nat.zero_add, Except.ok.injEq,
        and_iff_right hfits]
    · rw [runProgram, Cpm.Machine.loadCom_eq, if_neg hfits]
      exact iff_of_false nofun fun h => hfits h.1

omit [GameBoy.NoiseSource] in
theorem totalCycles_startProgram : (startProgram c image journal).totalCycles = 0 := by
  rw [startProgram, Cpm.Machine.load, Cpm.Machine.loadCom]
  by_cases h : image.length ≤ Cpm.programSpace
  · rw [if_pos h]
  · rw [if_neg h]
    rfl

/-- A report tells the cycles of all steps. -/
theorem cycles_reportOf : (reportOf c image journal).cycles = (stepCosts c image journal).sum := by
  cases hsystem : c.system with
  | gameBoy =>
    simp only [reportOf, stepCosts, hsystem, List.length_map]
    rw [← gameBoyReport_run, gameBoyReport, GameBoy.Machine.totalCycles_run,
      GameBoy.Machine.run_fst, stepCycles_eq_sum, startGameBoy,
      GameBoy.Machine.totalCycles_powerOn, Nat.zero_add]
  | z80 =>
    simp only [reportOf, stepCosts, hsystem]
    rw [programReport, totalCycles_programCosts, totalCycles_startProgram, Nat.zero_add]

/-! ### The same run again -/

/-- The run with `n` steps as its limit has the outcome of the report `r`. -/
def Replays (n : Nat) (r : Report) : Prop :=
  ∃ r', (runImage { c with maxSteps := some n } image journal).1 = .ok r' ∧ r'.SameOutcome r

/-- A run with the number of its steps as the limit makes the same steps again. -/
theorem stepCosts_replay :
    stepCosts { c with maxSteps := some (stepCosts c image journal).length } image journal =
      stepCosts c image journal := by
  cases hsystem : c.system with
  | gameBoy =>
    simp only [stepCosts, hsystem, RunConfig.calls, List.length_map]
    rw [GameBoy.Machine.map_starts, length_starts_replicate_step, startGameBoy, startGameBoy]
    exact (GameBoy.Machine.map_starts _ _).symm
  | z80 =>
    simp only [stepCosts, hsystem, Option.getD_some]
    exact programCosts_length _ _

/-- Its outcome is the same. -/
theorem sameOutcome_replay :
    (reportOf { c with maxSteps := some (stepCosts c image journal).length } image
      journal).SameOutcome (reportOf c image journal) := by
  have hsteps := stepCosts_replay c image journal
  unfold reportOf
  dsimp only
  rw [hsteps]
  cases hsystem : c.system with
  | gameBoy => exact ⟨rfl, rfl, rfl, rfl⟩
  | z80 => exact ⟨rfl, rfl, rfl, rfl⟩

/-! ### Runs of frames -/

theorem overshoot_startGameBoy : (startGameBoy c image journal).overshoot = 0 := by
  rw [startGameBoy, GameBoy.Machine.powerOn, GameBoy.Machine.insert_eq]
  rfl

/-- A run of frames lasts at least one frame. -/
theorem dotsPerFrame_le_sum {c : RunConfig} (h : c.RunsFrames) :
    GameBoy.dotsPerFrame ≤ (stepCosts c image journal).sum := by
  obtain ⟨hsystem, hlimit, hframes⟩ := h
  obtain ⟨n, hn⟩ : ∃ n, c.frames = n + 1 := Nat.exists_eq_succ_of_ne_zero (Nat.ne_of_gt hframes)
  have hfirst := (startGameBoy c image journal).le_stepFrame
  rw [overshoot_startGameBoy, Nat.sub_zero] at hfirst
  simp only [stepCosts, hsystem, RunConfig.calls, hlimit, hn]
  rw [← stepCycles_eq_sum, List.replicate_succ, GameBoy.Machine.starts,
    GameBoy.Machine.stepCycles_append, ← GameBoy.Machine.call_fst]
  exact Nat.le_add_right_of_le hfirst

/-- It makes steps. -/
theorem length_pos_of_runsFrames {c : RunConfig} (h : c.RunsFrames) :
    0 < (stepCosts c image journal).length := by
  refine List.length_pos_of_ne_nil fun hnone => ?_
  have hle := dotsPerFrame_le_sum image journal h
  rw [hnone] at hle
  exact absurd hle (by decide)

/-- It reports none. -/
theorem steps_reportOf_of_runsFrames {c : RunConfig} (h : c.RunsFrames) :
    (reportOf c image journal).steps = 0 := by
  obtain ⟨hsystem, hlimit, -⟩ := h
  simp only [reportOf, hsystem, hlimit, gameBoyReport, Option.getD_none]

/-- Any other run reports its steps. -/
theorem steps_reportOf (h : ¬c.RunsFrames) :
    (reportOf c image journal).steps = (stepCosts c image journal).length := by
  cases hsystem : c.system with
  | z80 => simp only [reportOf, hsystem, programReport]
  | gameBoy =>
    simp only [reportOf, stepCosts, hsystem, gameBoyReport, RunConfig.calls, List.length_map]
    cases hlimit : c.maxSteps with
    | some n => exact (length_starts_replicate_step n _).symm
    | none =>
      have hframes : c.frames = 0 :=
        Nat.eq_zero_of_not_pos fun hpos => h ⟨hsystem, hlimit, hpos⟩
      rw [hframes]
      rfl

/-- A run of frames cannot be made again from its report: without steps no time passes. -/
theorem not_replays_of_runsFrames {c : RunConfig} (h : c.RunsFrames) :
    ¬Replays c image journal (reportOf c image journal).steps (reportOf c image journal) := by
  rintro ⟨r', hr', hsame⟩
  rw [steps_reportOf_of_runsFrames image journal h] at hr'
  obtain ⟨-, rfl⟩ := (runImage_eq_ok_iff _ _ _).1 hr'
  have hnone : stepCosts { c with maxSteps := some 0 } image journal = [] := by
    simp only [stepCosts, h.1]
    rfl
  have hcycles := hsame.cycles
  have hle := dotsPerFrame_le_sum image journal h
  rw [cycles_reportOf, cycles_reportOf, hnone] at hcycles
  rw [← hcycles] at hle
  exact absurd hle (by decide)

/-! ### Every run -/

/-- **Replaying a run.** The cycles of a report are those of all steps, and the run with the number
of these as its limit has the same outcome. The report tells this number, and so can be replayed,
unless the run was one of frames: of those it tells no steps at all. -/
theorem replays_steps_iff {r : Report} (h : (runImage c image journal).1 = .ok r) :
    r.cycles = (stepCosts c image journal).sum ∧
      Replays c image journal (stepCosts c image journal).length r ∧
      (r.steps = (stepCosts c image journal).length ↔ ¬c.RunsFrames) ∧
      (Replays c image journal r.steps r ↔ ¬c.RunsFrames) := by
  obtain ⟨hfits, rfl⟩ := (runImage_eq_ok_iff c image journal).1 h
  have hreplay : Replays c image journal (stepCosts c image journal).length
      (reportOf c image journal) :=
    ⟨_, (runImage_eq_ok_iff _ _ _).2 ⟨hfits, rfl⟩, sameOutcome_replay c image journal⟩
  refine ⟨cycles_reportOf c image journal, hreplay, ⟨?_, steps_reportOf c image journal⟩,
    ⟨fun hsteps hframes => ?_, fun hcounts => ?_⟩⟩
  · intro hsteps hframes
    have hpos := length_pos_of_runsFrames image journal hframes
    rw [← hsteps, steps_reportOf_of_runsFrames image journal hframes] at hpos
    exact Nat.lt_irrefl 0 hpos
  · exact not_replays_of_runsFrames image journal hframes hsteps
  · rw [steps_reportOf c image journal hcounts]
    exact hreplay

end

/-- A program that returns at once, with no limit given. -/
def retRun : RunConfig where
  system := .z80
  romPath := "ret.com"

/-- Its run starts, and can be made again from its report. -/
theorem replays_retRun :
    ∃ r, (runImage retRun [Cpm.retOpcode] .silent).1 = .ok r ∧
      Replays retRun [Cpm.retOpcode] .silent r.steps r := by
  have hfits : retRun.Fits [Cpm.retOpcode] := by
    change 1 ≤ Cpm.programSpace
    decide
  have hstarts := (runImage_eq_ok_iff retRun [Cpm.retOpcode] .silent).2 ⟨hfits, rfl⟩
  obtain ⟨-, -, -, hreplays⟩ := replays_steps_iff retRun [Cpm.retOpcode] .silent hstarts
  exact ⟨_, hstarts, hreplays.2 fun h => nomatch h.1⟩

/-- One frame of a Game Boy. -/
def frameRun : RunConfig where
  system := .gameBoy
  romPath := "loop.gb"
  frames := 1

/-- A cartridge whose program jumps to itself. -/
def loopImage : List UInt8 := List.replicate 0x0100 0 ++ [0x18, 0xFE]

/-- The frame makes steps, but reports none, so that its run cannot be made again from the
report. -/
theorem not_replays_frameRun :
    ∃ r, (runImage frameRun loopImage .silent).1 = .ok r ∧
      r.steps = 0 ∧ 0 < (stepCosts frameRun loopImage .silent).length ∧
      ¬Replays frameRun loopImage .silent r.steps r := by
  have hframes : frameRun.RunsFrames := ⟨rfl, rfl, Nat.zero_lt_one⟩
  have hfits : frameRun.Fits loopImage := by
    change loopImage.length ≤ GameBoy.romWindowSize
    rw [loopImage, List.length_append, List.length_replicate]
    decide
  exact ⟨_, (runImage_eq_ok_iff _ _ _).2 ⟨hfits, rfl⟩,
    steps_reportOf_of_runsFrames _ _ hframes, length_pos_of_runsFrames _ _ hframes,
    not_replays_of_runsFrames _ _ hframes⟩

end EightBit.Cli
