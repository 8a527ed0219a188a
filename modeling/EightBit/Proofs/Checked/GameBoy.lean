import EightBit.Proofs.Checked.Sm83
import EightBit.Proofs.GameBoy.PowerCycle

/-!
# The handheld stays within its types

The reload that the timer has due is counted down in a byte, the dots of the display are counted in
a double word and the line that they lead to is a byte. A write to work memory or to its echo goes
to two indices of memory, and a transfer to object memory computes an index of its source and one of
its target for every byte. The cycles of a step and those of a frame are added up in double words.

A write stays within its types whatever the bus holds. That the passing of time does depends on the
display: the dots are those of one frame. This holds of every machine that a driver can bring about.

## Main definitions

* `Clockwork.runChecked`, `Bus.passTimeChecked`: time.
* `Memory.copyChecked`, `Bus.writeByteChecked`: a transfer and a write.
* `Machine.stepChecked`, `Machine.stepFrameChecked`: the machine.

## Main results

* `Bus.writeByteChecked_eq`: a write stays within its types.
* `Bus.passTimeChecked_eq`: so does time, if the display is well formed.
* `Machine.wellFormed_lcd_operate`: the display after any operations.
* `Machine.stepChecked_eq`, `Machine.stepFrameChecked_eq`: steps and frames.
-/

namespace EightBit

/-- `Memory.copy` from byte `i` on, with the indices of the bytes computed in a double word and the
source wrapping at the end of memory. -/
def Memory.copyChecked (source target : Nat) : (n i : Nat) → Memory → Checked Memory
  | 0, _, m => return m
  | n + 1, i, m => do
    let read ← Checked.sum 32 source i
    let b ← m.readChecked (read % addressCount)
    let written ← Checked.sum 32 target i
    let m ← m.writeChecked written b
    copyChecked source target n (i + 1) m

theorem Memory.copyChecked_eq {source target : UInt16} {n i : Nat} (m : Memory)
    (h : target.toNat + i + n ≤ addressCount) :
    m.copyChecked source.toNat target.toNat n i =
      .ok (m.copy (source + .ofNat i) (target + .ofNat i) n) := by
  induction n generalizing i m with
  | zero => rfl
  | succ n ih =>
    have hsource := source.toNat_lt
    have hend : target.toNat + i + (n + 1) ≤ 65536 := h
    have hread : UInt16.ofNat ((source.toNat + i) % addressCount) = source + .ofNat i := by
      rw [UInt16.ofNat_mod_size, UInt16.ofNat_add, UInt16.ofNat_toNat]
    have hwritten : UInt16.ofNat (target.toNat + i) = target + .ofNat i := by
      rw [UInt16.ofNat_add, UInt16.ofNat_toNat]
    have hnext (a : UInt16) : a + .ofNat (i + 1) = a + .ofNat i + 1 := by
      rw [UInt16.ofNat_add, UInt16.add_assoc]
      rfl
    rw [copyChecked, Checked.sum_eq (by omega), Checked.ok_bind,
      m.readChecked_eq (Nat.mod_lt _ (by decide)), Checked.ok_bind, Checked.sum_eq (by omega),
      Checked.ok_bind, m.writeChecked_eq (by omega), Checked.ok_bind, ih _ (by omega), hread,
      hwritten, hnext, hnext]
    rfl

namespace GameBoy

open Sm83 (Board)

/-! ### Time -/

/-- `Timer.settle` with the delay counted down in a byte. -/
def Timer.settleChecked (t : Timer) : Checked Timer :=
  if t.overflowDelay = 0 then return t
  else do
    let delay ← Checked.difference t.overflowDelay 1
    return { t with tima := if delay = 0 then t.tma else t.tima, overflowDelay := delay }

/-- `Timer.tick` with a checked delay. -/
def Timer.tickChecked (t : Timer) : Checked Timer := do
  let t ← t.settleChecked
  return { t with counter := t.counter + 1 }.countEdge t.signal

/-- `Lcd.advance` with the dots counted in a double word and the line in a byte. -/
def Lcd.advanceChecked (d : Lcd) : Checked Lcd := do
  let next ← Checked.sum 32 d.dots 1
  let dots := next % dotsPerFrame
  let line ← Checked.conversion 8 (dots / dotsPerLine)
  return { d with dots, line := .ofNat line }

theorem Timer.settleChecked_eq (t : Timer) : t.settleChecked = .ok t.settle := by
  obtain ⟨counter, tima, tma, tac, delay, enabled⟩ := t
  match delay with
  | 0 | 1 | n + 2 => rfl

theorem Timer.tickChecked_eq (t : Timer) : t.tickChecked = .ok t.tick := by
  rw [tickChecked, t.settleChecked_eq]
  rfl

theorem Lcd.advanceChecked_eq {d : Lcd} (h : d.dots < dotsPerFrame) :
    d.advanceChecked = .ok d.advance := by
  have hdots : d.dots < 70224 := h
  have hline : (d.dots + 1) % dotsPerFrame / dotsPerLine < 2 ^ 8 := by
    change (d.dots + 1) % 70224 / 456 < 256
    omega
  rw [advanceChecked, Checked.sum_eq (by omega), Checked.ok_bind]
  dsimp only
  rw [Checked.conversion_eq hline]
  rfl

namespace Clockwork

/-- `Clockwork.dot` with a checked position. The mode is found from a remainder, and the number of
blanks is bounded by time only. -/
def dotChecked (c : Clockwork) : Checked Clockwork :=
  if !c.lcd.isOn then return { c with lcd := c.lcd.rest }
  else do
    let oldLine := c.lcd.line
    let lcd ← c.lcd.advanceChecked
    let c := { c with lcd }
    let c := if Lcd.entersBlank oldLine c.lcd.line then c.beginBlank oldLine else c
    return c.refresh

/-- `Clockwork.timerCycle` with a checked timer. -/
def timerCycleChecked (c : Clockwork) : Checked Clockwork := do
  let timer ← c.timer.tickChecked
  let c := if c.timer.requests then c.request .timer else c
  return { c with timer }

/-- `Clockwork.cycle` with checked devices. -/
def cycleChecked (c : Clockwork) : Checked Clockwork := do
  let c ← c.timerCycleChecked
  c.dotChecked

/-- `Clockwork.run` with checked devices. -/
def runChecked : (n : Nat) → Clockwork → Checked Clockwork
  | 0, c => return c
  | n + 1, c => do
    let c ← c.cycleChecked
    runChecked n c

theorem dotChecked_eq {c : Clockwork} (h : c.lcd.dots < dotsPerFrame) :
    c.dotChecked = .ok c.dot := by
  rw [dotChecked, dot]
  split
  · rfl
  · rw [Lcd.advanceChecked_eq h]
    rfl

theorem timerCycleChecked_eq (c : Clockwork) : c.timerCycleChecked = .ok c.timerCycle := by
  have htimer : (if c.timer.requests then c.request .timer else c).timer = c.timer := by
    split <;> rfl
  rw [timerCycleChecked, c.timer.tickChecked_eq, timerCycle]
  dsimp only
  rw [htimer]
  rfl

theorem cycleChecked_eq {c : Clockwork} (h : c.lcd.dots < dotsPerFrame) :
    c.cycleChecked = .ok c.cycle := by
  have hdots : c.timerCycle.lcd.dots < dotsPerFrame := by rwa [timerCycle_eq]
  rw [cycleChecked, timerCycleChecked_eq, Checked.ok_bind, dotChecked_eq hdots, cycle]

/-- Time stays within its types if the display is well formed, which time preserves. -/
theorem runChecked_eq {c : Clockwork} (h : c.lcd.WellFormed) (n : Nat) :
    runChecked n c = .ok (run n c) := by
  induction n generalizing c with
  | zero => rfl
  | succ n ih =>
    have hcycle : c.cycle.lcd.WellFormed := by
      rw [lcd_cycle]
      exact h.dot
    rw [runChecked, cycleChecked_eq h.dots_lt, Checked.ok_bind, ih hcycle, run]

end Clockwork

/-! ### The bus -/

/-- Work memory that has an echo ends below the echo. -/
theorem Target.lt_of_mirrored {a : UInt16} (h : ofAddress a = mirrored) : a < 0xDE00 := by
  unfold ofAddress ofRegister at h
  repeat' split at h
  all_goals first
    | assumption
    | exact absurd h nofun

/-- The echo starts behind the memory that it is of. -/
theorem Target.le_of_echo {a : UInt16} (h : ofAddress a = echo) : 0xE000 ≤ a := by
  unfold ofAddress ofRegister at h
  repeat' split at h
  all_goals first
    | exact UInt16.not_lt.1 ‹¬a < 0xE000›
    | exact absurd h nofun

namespace Bus

variable (bus : Bus)

/-- `Bus.passTime` with checked devices. -/
def passTimeChecked (n : Nat) : Checked Bus := do
  let c ← bus.clockwork.runChecked n
  return (bus.withClockwork c).syncTimer

/-- Stores a byte at an index of memory. -/
def pokeChecked (i : Nat) (v : UInt8) : Checked Bus := do
  let memory ← bus.memory.writeChecked i v
  return { bus with memory }

/-- `Bus.writeSerialControl` with the index that was written. -/
def writeSerialControlChecked (i : Nat) (v : UInt8) : Checked Bus :=
  let serial := bus.serial.writeControl v
  let bus := { bus with serial := serial }
  let bus := if Serial.starts v then bus.request Sm83.InterruptSource.serial.mask else bus
  bus.pokeChecked i serial.controlRead

/-- `Bus.startDma` with checked indices. -/
def startDmaChecked (v : UInt8) : Checked Bus := do
  let memory ← bus.memory.copyChecked (v.toNat <<< 8) oamStart.toNat oamSize 0
  let bus := { bus with memory := memory.write oamDmaAddress v }
  return bus.note (.oamDma (v.toUInt16 <<< 8))

/-- `Bus.writeTarget` with checked indices. The registers that are missing here have literal indices
or none. -/
def writeTargetChecked (target : Target) (a : UInt16) (v : UInt8) : Checked Bus :=
  match target with
  | .mirrored => do
    let bus ← bus.pokeChecked a.toNat v
    let i ← Checked.sum 32 a.toNat echoOffset.toNat
    bus.pokeChecked i v
  | .echo => do
    let bus ← bus.pokeChecked a.toNat v
    let i ← Checked.difference a.toNat echoOffset.toNat
    bus.pokeChecked i v
  | .joypad => bus.pokeChecked a.toNat (0xC0 ||| (v &&& 0x30) ||| 0x0F)
  | .serialData => { bus with serial := bus.serial.writeData v }.pokeChecked a.toNat v
  | .serialControl => bus.writeSerialControlChecked a.toNat v
  | .requests => bus.pokeChecked a.toNat (v ||| unusedRequestBits)
  | .oamDma => bus.startDmaChecked v
  | .plain => bus.pokeChecked a.toNat v
  | target => return bus.writeTarget target a v

/-- `Bus.writeByte` with checked indices. -/
def writeByteChecked (a : UInt16) (v : UInt8) : Checked Bus := do
  let bus ← bus.writeTargetChecked (.ofAddress a) a v
  return bus.callHooks a v

variable {bus} in
/-- Time stays within its types if the display is well formed. -/
theorem passTimeChecked_eq (h : bus.lcd.WellFormed) (n : Nat) :
    bus.passTimeChecked n = .ok (bus.passTime n) := by
  rw [passTimeChecked, Clockwork.runChecked_eq h]
  rfl

theorem pokeChecked_eq {i : Nat} (h : i < addressCount) (v : UInt8) :
    bus.pokeChecked i v = .ok (bus.poke (.ofNat i) v) := by
  rw [pokeChecked, bus.memory.writeChecked_eq h]
  rfl

theorem pokeChecked_toNat (a : UInt16) (v : UInt8) :
    bus.pokeChecked a.toNat v = .ok (bus.poke a v) := by
  rw [bus.pokeChecked_eq (Memory.lt_addressCount a), UInt16.ofNat_toNat]

theorem startDmaChecked_eq (v : UInt8) : bus.startDmaChecked v = .ok (bus.startDma v) := by
  have hsource : ∀ v : UInt8, v.toNat <<< 8 = (v.toUInt16 <<< 8).toNat := forall_byte (by decide)
  have hzero (a : UInt16) : a + UInt16.ofNat 0 = a := UInt16.add_zero a
  rw [startDmaChecked, hsource, Memory.copyChecked_eq _ (by decide), Checked.ok_bind, hzero, hzero]
  rfl

theorem writeTargetChecked_eq {target : Target} {a : UInt16} (h : Target.ofAddress a = target)
    (v : UInt8) : bus.writeTargetChecked target a v = .ok (bus.writeTarget target a v) := by
  cases target with
  | mirrored =>
    have hbelow : a.toNat < 0xDE00 := UInt16.lt_iff_toNat_lt.1 (Target.lt_of_mirrored h)
    have hindex : a.toNat + echoOffset.toNat < addressCount :=
      Nat.lt_trans (Nat.add_lt_add_right hbelow 0x2000) (by decide)
    rw [writeTargetChecked, pokeChecked_toNat, Checked.ok_bind,
      Checked.sum_eq (Nat.lt_trans hindex (by decide)), Checked.ok_bind, pokeChecked_eq _ hindex,
      UInt16.ofNat_add, UInt16.ofNat_toNat, UInt16.ofNat_toNat]
    rfl
  | echo =>
    have habove : 0xE000 ≤ a := Target.le_of_echo h
    have hoffset : echoOffset ≤ a := UInt16.le_trans (by decide) habove
    have hindex : a.toNat - echoOffset.toNat = (a - echoOffset).toNat :=
      (UInt16.toNat_sub_of_le _ _ hoffset).symm
    rw [writeTargetChecked, pokeChecked_toNat, Checked.ok_bind,
      Checked.difference_eq (UInt16.le_iff_toNat_le.1 hoffset), Checked.ok_bind, hindex,
      pokeChecked_toNat]
    rfl
  | joypad | serialData | requests | plain => exact pokeChecked_toNat _ a _
  | serialControl =>
    have ha : a = serialControlAddress := Target.eq_of_register? (by rw [h]; rfl)
    rw [writeTargetChecked, writeSerialControlChecked, pokeChecked_toNat, ha]
    rfl
  | oamDma => exact bus.startDmaChecked_eq v
  | _ => rfl

/-- A write stays within its types. -/
theorem writeByteChecked_eq (a : UInt16) (v : UInt8) :
    bus.writeByteChecked a v = .ok (bus.writeByte a v) := by
  rw [writeByteChecked, bus.writeTargetChecked_eq rfl]
  rfl

end Bus

/-! ### Steps and frames -/

namespace Machine

/-- `Machine.settle` with checked devices. -/
def settleChecked (board : Board Bus) (n : Nat) : Checked (Board Bus) :=
  if board.cpu.stopped then return board
  else do
    let bus ← board.bus.passTimeChecked n
    return { board with bus }

/-- `Machine.step` with a checked processor, checked devices and the cycles added up in a double
word. -/
def stepChecked (m : Machine) : Checked (Nat × Machine) := do
  let ⟨cycles, board, executed⟩ ← m.board.stepChecked
  let (trace, board) := observe m.config m.trace board executed
  let board ← settleChecked board cycles
  let (entry, board) ← board.handleInterruptsChecked
  match entry with
  | some n =>
    let bus ← board.bus.passTimeChecked n
    let cycles ← Checked.sum 32 cycles n
    return (cycles, { m with board := { board with bus }, trace,
                             totalCycles := m.totalCycles + cycles })
  | none => return (cycles, { m with board, trace, totalCycles := m.totalCycles + cycles })

/-- `Machine.runFor` with checked steps and the cycles added up in a double word. -/
def runForChecked (budget : Nat) : (fuel ran : Nat) → Machine → Checked (Nat × Machine)
  | 0, ran, m => return (ran, m)
  | fuel + 1, ran, m =>
    if ran < budget then do
      let (n, m) ← m.stepChecked
      let ran ← Checked.sum 32 ran n
      runForChecked budget fuel ran m
    else return (ran, m)

/-- `Machine.stepFrame` with checked steps and what the frame ran over computed in a double word. -/
def stepFrameChecked (m : Machine) : Checked (Nat × Machine) := do
  let budget := dotsPerFrame - m.overshoot
  let (ran, m) ← runForChecked budget budget 0 m
  let overshoot ← Checked.difference ran budget
  return (ran, { m with overshoot })

/-! #### The display of a machine -/

theorem wellFormed_lcd_access {bus : Bus} (h : bus.lcd.WellFormed) (x : Sm83.Access) :
    (x.apply bus).lcd.WellFormed := by
  cases x with
  | write a v => exact Bus.wellFormed_lcd_apply h (.write a v)
  | note n => exact h

section Processor

variable {s : Board Bus} (h : s.bus.lcd.WellFormed)

include h

theorem wellFormed_lcd_boardStep : s.step.board.bus.lcd.WellFormed :=
  Board.bus_step_induction (P := fun bus : Bus => bus.lcd.WellFormed) h
    fun x _ _ hbus => wellFormed_lcd_access hbus x

theorem wellFormed_lcd_handleInterrupts : s.handleInterrupts.2.bus.lcd.WellFormed :=
  Board.bus_handleInterrupts_induction (P := fun bus : Bus => bus.lcd.WellFormed) h
    fun x _ _ hbus => wellFormed_lcd_access hbus x

end Processor

/-- A reset leaves the display as it is after power-on. -/
theorem wellFormed_lcd_reset [NoiseSource] (m : Machine) : m.reset.board.bus.lcd.WellFormed := by
  have hpeek {a : UInt16} (ha : romWindowSize ≤ a.toNat) :=
    (m.peek_reset a).trans (if_neg (Nat.not_lt.2 ha))
  have hlcd : m.reset.board.bus.lcd = (Bus.powerOn m.config.ram.bytes m.board.bus.journal).lcd := by
    refine Bus.lcd_eq (hpeek (by decide)) (hpeek (by decide)) (hpeek (by decide))
      (hpeek (by decide)) ?_ ?_ ?_ <;> rw [bus_reset]
  rw [hlcd]
  exact Bus.wellFormed_lcd_powerOn _ _

section Operations

variable {m : Machine} (h : m.board.bus.lcd.WellFormed)

include h

theorem wellFormed_lcd_observed :
    (observe m.config m.trace m.board.step.board m.board.step.executed).2.bus.lcd.WellFormed :=
  bus_observe_induction (P := fun bus : Bus => bus.lcd.WellFormed) _ _ _ _
    (wellFormed_lcd_boardStep h) fun _ => wellFormed_lcd_boardStep h

theorem wellFormed_lcd_settled : m.settled.bus.lcd.WellFormed := by
  rw [settled, settle]
  split
  · exact wellFormed_lcd_observed h
  · exact Bus.wellFormed_lcd_apply (wellFormed_lcd_observed h) (.tick _)

theorem wellFormed_lcd_step : m.step.2.board.bus.lcd.WellFormed :=
  step_induction (P := fun _ bus => bus.lcd.WellFormed) (t := 0) h
    (fun x _ _ _ hbus => wellFormed_lcd_access hbus x) (fun _ _ _ hbus => hbus)
    fun n _ _ hbus => Bus.wellFormed_lcd_apply hbus (.tick n)

theorem wellFormed_lcd_perform [NoiseSource] (op : Operation) :
    (m.perform op).2.board.bus.lcd.WellFormed := by
  cases op with
  | call c =>
    exact call_induction (P := fun m => m.board.bus.lcd.WellFormed) h (fun _ _ hm => hm) c
      fun _ _ hm => wellFormed_lcd_step hm
  | insert image =>
    change (m.insert image).board.bus.lcd.WellFormed
    have hinsert : (m.board.bus.insert image).lcd.WellFormed := by rwa [Bus.lcd_insert]
    rcases bus_insert_eq_or m image with hbus | ⟨n, hbus⟩ <;> rw [hbus] <;> exact hinsert
  | bus c =>
    cases c with
    | read a => exact h
    | _ => exact Bus.wellFormed_lcd_apply h _
  | execute => exact wellFormed_lcd_boardStep h
  | interrupt => exact wellFormed_lcd_handleInterrupts h
  | reset => exact wellFormed_lcd_reset m
  | _ => exact h

end Operations

/-- The display of a machine after any operations is well formed. -/
theorem wellFormed_lcd_operate [NoiseSource] (config : Config) (journal : Journal)
    (ops : List Operation) :
    ((create config journal).operate ops).2.board.bus.lcd.WellFormed := by
  have hbus : (create config journal).board.bus = Bus.powerOn config.ram.bytes journal := rfl
  have hcreate : (create config journal).board.bus.lcd.WellFormed := by
    rw [hbus]
    exact Bus.wellFormed_lcd_powerOn config.ram.bytes journal
  exact operate_induction (P := fun m => m.board.bus.lcd.WellFormed) hcreate
    (fun _ op hm => wellFormed_lcd_perform hm op) ops

/-! #### The cycles of a step -/

theorem entryCycles_le (m : Machine) : m.entryCycles ≤ Sm83.dispatchCycles := by
  rw [entryCycles, Board.handleInterrupts_fst]
  split
  · exact Nat.le_refl _
  · exact Nat.zero_le _

/-- A step takes no more than the longest instruction and an interrupt. -/
theorem step_fst_le (m : Machine) : m.step.1 ≤ Sm83.maxStepCycles + Sm83.dispatchCycles := by
  rw [step_fst]
  exact Nat.add_le_add m.board.cycles_step_le m.entryCycles_le

/-! #### The machine -/

theorem settleChecked_eq {board : Board Bus} (h : board.bus.lcd.WellFormed) (n : Nat) :
    settleChecked board n = .ok (settle board n) := by
  rw [settleChecked, settle, Bus.passTimeChecked_eq h]
  split <;> rfl

variable {m : Machine} (h : m.board.bus.lcd.WellFormed)

include h

/-- A step stays within its types if the display is well formed. -/
theorem stepChecked_eq : m.stepChecked = .ok m.step := by
  have hobserved := wellFormed_lcd_observed h
  have hinterrupt := wellFormed_lcd_handleInterrupts (wellFormed_lcd_settled h)
  have hcycles := m.step_fst_le
  rw [step_fst, entryCycles] at hcycles
  have hsettled : settle (observe m.config m.trace m.board.step.board m.board.step.executed).2
      m.board.step.cycles = m.settled := rfl
  rw [stepChecked, Board.stepChecked_eq, Checked.ok_bind]
  dsimp only
  rw [settleChecked_eq hobserved, Checked.ok_bind, Board.handleInterruptsChecked_eq,
    Checked.ok_bind, hsettled, step_eq, entryCycles, caughtUp]
  generalize m.settled.handleInterrupts = p at hinterrupt hcycles ⊢
  obtain ⟨_ | n, board⟩ := p
  · rfl
  · have hsum : m.board.step.cycles + n < 2 ^ 32 := Nat.lt_of_le_of_lt hcycles (by decide)
    dsimp only
    rw [Bus.passTimeChecked_eq hinterrupt, Checked.ok_bind, Checked.sum_eq hsum]
    rfl

/-- Steps for a budget stay within their types: no step starts beyond the budget, and none takes
long. -/
theorem runForChecked_eq {budget : Nat} (hbudget : budget ≤ dotsPerFrame) (fuel ran : Nat) :
    runForChecked budget fuel ran m = .ok (runFor budget fuel ran m) := by
  induction fuel generalizing ran m with
  | zero => rfl
  | succ fuel ih =>
    rw [runForChecked, runFor]
    split
    next hlt =>
      have hstep : m.step.1 ≤ 44 := m.step_fst_le
      have hframe : budget ≤ 70224 := hbudget
      rw [stepChecked_eq h, Checked.ok_bind]
      dsimp only
      rw [Checked.sum_eq (by omega), Checked.ok_bind, ih (wellFormed_lcd_step h)]
    next => rfl

/-- A frame stays within its types if the display is well formed. -/
theorem stepFrameChecked_eq : m.stepFrameChecked = .ok m.stepFrame := by
  have hran : dotsPerFrame - m.overshoot ≤
      (runFor (dotsPerFrame - m.overshoot) (dotsPerFrame - m.overshoot) 0 m).1 := m.le_stepFrame
  rw [stepFrameChecked, stepFrame, runForChecked_eq h (Nat.sub_le _ _), Checked.ok_bind]
  dsimp only
  rw [Checked.difference_eq hran]
  rfl

end Machine

end GameBoy

end EightBit
