import EightBit.Proofs.GameBoy.SingleSteps
import EightBit.Proofs.Sm83.Surroundings

/-!
# The machine does not look at its notices

Notices are for the user: no device, no instruction and no interrupt depends on those taken so far.
Whatever is done to two machines that differ in their notices alone is therefore the same, and so is
what they report. The same is true of the instructions recorded, which a step only adds to.

## Main definitions

* `Bus.hushed`: the bus with no notices, which keeps none either.
* `caughtUp`: the board after the interrupt that follows a step.
* `Machine.SameState`: two machines that differ at most in notices and records.

## Main results

* `Bus.writeByte_hushed`, `Bus.passTime_hushed`: writes and time on a bus without notices.
* `Bus.hom_hushed`: a processor cannot tell whether there are notices.
* `Machine.SameState.step_fst`, `Machine.SameState.step_snd`: machines in the same state make the
  same step.
-/

namespace EightBit.GameBoy

open Sm83 (Board)

/-! ### Devices -/

namespace Clockwork

/-- The clocked devices with no notices. -/
def hushed (c : Clockwork) : Clockwork := { c with journal := .silent }

variable (c : Clockwork)

@[simp] theorem note_hushed (n : Notice) : c.hushed.note n = (c.note n).hushed := rfl

@[simp] theorem request_hushed (source : Sm83.InterruptSource) :
    c.hushed.request source = (c.request source).hushed := rfl

theorem refresh_hushed : c.hushed.refresh = c.refresh.hushed := by
  rw [refresh, refresh, apply_ite hushed]
  rfl

theorem beginBlank_hushed (old : UInt8) :
    c.hushed.beginBlank old = (c.beginBlank old).hushed := by
  have hrequests := apply_ite hushed ((c.request .vblank).lcd.status &&& 0x20 != 0)
    ((c.request .vblank).request .lcdStat) (c.request .vblank)
  exact congrArg (fun d : Clockwork =>
    { d with lcd := { d.lcd with frames := d.lcd.frames + 1 } }.note
      (.verticalBlank old d.lcd.line d.requests d.lcd.status)) hrequests.symm

theorem dot_hushed : c.hushed.dot = c.dot.hushed := by
  have hadvanced := apply_ite hushed (Lcd.entersBlank c.lcd.line c.lcd.advance.line)
    ({ c with lcd := c.lcd.advance }.beginBlank c.lcd.line) { c with lcd := c.lcd.advance }
  rw [dot, dot, apply_ite hushed]
  dsimp only
  rw [← refresh_hushed, hadvanced, ← beginBlank_hushed]
  rfl

theorem timerCycle_hushed : c.hushed.timerCycle = c.timerCycle.hushed := by
  rw [timerCycle_eq, timerCycle_eq]
  rfl

theorem run_hushed (n : Nat) : run n c.hushed = (run n c).hushed := by
  induction n generalizing c with
  | zero => rfl
  | succ n ih => rw [run, run, cycle, timerCycle_hushed, dot_hushed, ih, cycle]

end Clockwork

/-! ### The bus -/

namespace Bus

/-- The bus with no notices, which keeps none either. -/
def hushed (bus : Bus) : Bus := { bus with journal := .silent }

variable (bus : Bus)

@[simp] theorem note_hushed (n : Notice) : bus.hushed.note n = (bus.note n).hushed := rfl

/-- A notice is all that a note adds. -/
@[simp] theorem hushed_note (n : Notice) : (bus.note n).hushed = bus.hushed := rfl

theorem passTime_hushed (n : Nat) : bus.hushed.passTime n = (bus.passTime n).hushed := by
  have hrun : bus.hushed.clockwork.run n = (bus.clockwork.run n).hushed :=
    bus.clockwork.run_hushed n
  rw [passTime, hrun, passTime]
  rfl

theorem refreshLcd_hushed : bus.hushed.refreshLcd = bus.refreshLcd.hushed := by
  have hrefresh : bus.hushed.clockwork.refresh = bus.clockwork.refresh.hushed :=
    bus.clockwork.refresh_hushed
  rw [refreshLcd, hrefresh, refreshLcd]
  rfl

theorem writeSerialControl_hushed (v : UInt8) :
    bus.hushed.writeSerialControl v = (bus.writeSerialControl v).hushed := by
  rw [writeSerialControl, writeSerialControl]
  split <;> rfl

theorem writeLcdControl_hushed (v : UInt8) :
    bus.hushed.writeLcdControl v = (bus.writeLcdControl v).hushed := by
  have hwasOn : bus.hushed.peek lcdControlAddress = bus.peek lcdControlAddress := rfl
  rw [writeLcdControl, writeLcdControl, ← refreshLcd_hushed, hwasOn]
  split <;> rfl

theorem writeTarget_hushed (target : Target) (a : UInt16) (v : UInt8) :
    bus.hushed.writeTarget target a v = (bus.writeTarget target a v).hushed := by
  cases target with
  | serialControl => exact bus.writeSerialControl_hushed v
  | lcdControl => exact bus.writeLcdControl_hushed v
  | lcdStatus => exact refreshLcd_hushed (bus.poke lcdStatusAddress _)
  | lcdCompare => exact refreshLcd_hushed (bus.poke a v)
  | _ => rfl

theorem callHooks_hushed (a : UInt16) (v : UInt8) :
    bus.hushed.callHooks a v = (bus.callHooks a v).hushed := by
  rw [callHooks, callHooks, apply_ite hushed]
  rfl

theorem writeByte_hushed (a : UInt16) (v : UInt8) :
    bus.hushed.writeByte a v = (bus.writeByte a v).hushed := by
  rw [writeByte, writeTarget_hushed, callHooks_hushed, writeByte]

theorem insert_hushed (image : List UInt8) :
    bus.hushed.insert image = (bus.insert image).hushed := by
  rcases Nat.lt_or_ge romWindowSize image.length with h | h
  · rw [insert_of_lt_length _ h, insert_of_lt_length _ h]
  · rw [insert_of_length_le _ h, insert_of_length_le _ h]
    rfl

/-- A call does the same on a bus without notices. -/
theorem apply_hushed (c : Call) : bus.hushed.apply c = (bus.apply c).hushed := by
  cases c with
  | write a v => exact bus.writeByte_hushed a v
  | tick n => exact bus.passTime_hushed n
  | insert image => exact bus.insert_hushed image
  | read | request | hook => rfl

/-- A processor cannot tell whether there are notices. -/
theorem hom_hushed : Sm83.Bus.Hom hushed where
  read _ _ := rfl
  write := writeByte_hushed
  note _ _ := rfl
  pendingInterrupts _ := rfl

end Bus

/-! ### Steps of the machine -/

/-- The board after the interrupt that it takes, if one is due, and the time that takes. -/
def caughtUp (s : Board Bus) : Board Bus :=
  match s.handleInterrupts.1 with
  | some n => { s.handleInterrupts.2 with bus := s.handleInterrupts.2.bus.passTime n }
  | none => s.handleInterrupts.2

theorem caughtUp_hushed (s : Board Bus) :
    caughtUp (s.map Bus.hushed) = (caughtUp s).map Bus.hushed := by
  rw [caughtUp, Bus.hom_hushed.handleInterrupts, caughtUp]
  cases s.handleInterrupts.1 with
  | none => rfl
  | some n => exact congrArg (Board.mk _) (Bus.passTime_hushed _ n)

namespace Machine

theorem map_hushed_observe (config : Config) (trace : TraceLog) (board : Board Bus)
    (executed : Option Sm83.Instruction) :
    (observe config trace board executed).2.map Bus.hushed = board.map Bus.hushed := by
  rcases observe_snd_eq_or config trace board executed with h | ⟨n, h⟩ <;> rw [h]
  rfl

theorem settle_hushed (s : Board Bus) (n : Nat) :
    settle (s.map Bus.hushed) n = (settle s n).map Bus.hushed := by
  rw [settle, settle, apply_ite (Board.map Bus.hushed)]
  exact if_congr Iff.rfl rfl (congrArg (Board.mk s.cpu) (s.bus.passTime_hushed n))

variable (m : Machine)

/-- What a step changes. -/
theorem step_eq :
    m.step = (m.board.step.cycles + m.entryCycles, { m with
      board := caughtUp m.settled
      trace := (observe m.config m.trace m.board.step.board m.board.step.executed).1
      totalCycles := m.totalCycles + (m.board.step.cycles + m.entryCycles) }) := by
  obtain ⟨config, board, trace, overshoot, totalCycles⟩ := m
  unfold step caughtUp entryCycles settled
  dsimp only
  generalize (settle (observe config trace board.step.board board.step.executed).2
    board.step.cycles).handleInterrupts = p
  obtain ⟨_ | n, b⟩ := p <;> rfl

/-- The record of a step does not show in the state that the interrupt logic finds. -/
theorem map_hushed_settled :
    m.settled.map Bus.hushed =
      settle (m.board.map Bus.hushed).step.board (m.board.map Bus.hushed).step.cycles := by
  rw [settled, ← settle_hushed, map_hushed_observe, Bus.hom_hushed.step]
  rfl

/-- Two machines that differ at most in notices and records. -/
structure SameState (m n : Machine) : Prop where
  board : m.board.map Bus.hushed = n.board.map Bus.hushed
  overshoot : m.overshoot = n.overshoot
  totalCycles : m.totalCycles = n.totalCycles

namespace SameState

variable {m} {n : Machine} (h : m.SameState n)

include h

theorem cpu : m.board.cpu = n.board.cpu := by
  have hcpu := congrArg Board.cpu h.board
  exact hcpu

theorem executed_step : m.board.step.executed = n.board.step.executed := by
  have hstep := congrArg (fun s : Board Bus => s.step.executed) h.board
  rwa [Bus.hom_hushed.step, Bus.hom_hushed.step] at hstep

theorem cpu_step : m.board.step.board.cpu = n.board.step.board.cpu := by
  have hstep := congrArg (fun s : Board Bus => s.step.board.cpu) h.board
  rwa [Bus.hom_hushed.step, Bus.hom_hushed.step] at hstep

theorem settled : m.settled.map Bus.hushed = n.settled.map Bus.hushed := by
  rw [map_hushed_settled, h.board, map_hushed_settled]

/-- Machines in the same state take as long for a step. -/
theorem step_fst : m.step.1 = n.step.1 := by
  have hcycles := congrArg (fun s : Board Bus => s.step.cycles) h.board
  have hentry := congrArg (fun s : Board Bus => s.handleInterrupts.1) h.settled
  rw [Bus.hom_hushed.step, Bus.hom_hushed.step] at hcycles
  rw [Bus.hom_hushed.handleInterrupts, Bus.hom_hushed.handleInterrupts] at hentry
  rw [Machine.step_fst, Machine.step_fst, entryCycles, entryCycles, hentry]
  exact congrArg (· + _) hcycles

/-- They are in the same state after it. -/
theorem step_snd : m.step.2.SameState n.step.2 where
  board := by
    rw [step_eq, step_eq]
    change (caughtUp m.settled).map Bus.hushed = (caughtUp n.settled).map Bus.hushed
    rw [← caughtUp_hushed, h.settled, caughtUp_hushed]
  overshoot := by
    rw [step_eq, step_eq]
    exact h.overshoot
  totalCycles := by rw [totalCycles_step, totalCycles_step, h.totalCycles, h.step_fst]

theorem after (k : Nat) : (m.after k).SameState (n.after k) := by
  induction k generalizing m n with
  | zero => exact h
  | succ k ih =>
    rw [after_succ, after_succ]
    exact ih h.step_snd

end SameState

end Machine

end EightBit.GameBoy
