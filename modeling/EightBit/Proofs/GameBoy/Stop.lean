import EightBit.Proofs.GameBoy.PowerCycle

/-!
# The stopped machine

`STOP` stops the processor and with it the clock, until the joypad calls. A step of a stopped
machine therefore changes nothing but the number of cycles counted, and any number of steps change
nothing else. The register of the joypad cannot wake the processor: its lines read high whatever is
written there. What remains is the interrupt of the joypad, which no device requests, so that a
machine stays stopped until it is requested and enabled from outside.

## Main definitions

* `Bus.joypadPending`: the interrupt of the joypad is requested and enabled.
* `Machine.Frozen`: the processor is stopped, and that interrupt is not pending.
* `Machine.Operation.CallsJoypad`, `Machine.Operation.Restarts`: what may end this.
* `Machine.StaysFrozen`: a frozen machine from now on.

## Main results

* `Machine.Sound.perform`: what every operation preserves.
* `Machine.Frozen.step_eq`, `Machine.Frozen.after_eq`: steps of a frozen machine.
* `Machine.Frozen.exists_of_running`: what made a machine resume.
* `Machine.staysFrozen_operate`: frozen machines in every state that can be reached.
-/

namespace EightBit.GameBoy

open Sm83 (Board InterruptSource Interrupts pendingInterrupts requestAddress enableAddress
  joypadAddress)

namespace Bus

/-! ### The joypad -/

/-- The interrupt of the joypad is requested and enabled. -/
def joypadPending (bus : Bus) : Bool :=
  bus.peek 0xFFFF &&& bus.peek 0xFF0F &&& 0x10 != 0

variable (bus : Bus)

theorem contains_joypad_pendingInterrupts :
    (pendingInterrupts bus).contains .joypad = bus.joypadPending := by
  change (_ &&& _ &&& 0x1F &&& 0x10 != (0 : UInt8)) = _
  rw [UInt8.and_assoc]
  rfl

theorem joypadPending_eq :
    bus.joypadPending =
      (hasBit (bus.peek enableAddress) InterruptSource.joypad.index &&
        hasBit bus.requests InterruptSource.joypad.index) := by
  have htest := and_mask_bne_zero (bus.peek 0xFFFF &&& bus.peek 0xFF0F) (m := 0x10)
    (k := InterruptSource.joypad.index) (by decide)
  rw [joypadPending, htest, hasBit_and]
  rfl

/-- Whether the interrupt is pending depends on two bits. -/
theorem joypadPending_congr {b c : Bus}
    (henable : b.peek enableAddress = c.peek enableAddress)
    (hrequest : hasBit b.requests InterruptSource.joypad.index =
      hasBit c.requests InterruptSource.joypad.index) : b.joypadPending = c.joypadPending := by
  rw [joypadPending_eq, joypadPending_eq, henable, hrequest]

variable {bus} in
/-- No line of the joypad is low. -/
theorem UnusedBitsSet.joypad_released (h : bus.UnusedBitsSet) :
    bus.peek joypadAddress &&& 0x0F = 0x0F := by
  have hmask : ∀ k < 8, hasBit 0x0F k = decide (k < 4) := by decide
  refine ext_hasBit fun k => ?_
  rw [hasBit_and, Bool.and_eq_right_iff_imp]
  intro hset
  have hk := lt_of_hasBit hset
  rw [hmask k hk, decide_eq_true_eq] at hset
  exact h.joypad k hk (.inl hset)

/-! ### What leaves the interrupt of the joypad alone -/

/-- No write requests the interrupt of the joypad but one to the request register. -/
theorem hasBit_raised?_joypad (a : UInt16) (v : UInt8) :
    hasBit (maskOf (bus.raised? a v)) InterruptSource.joypad.index = false := by
  unfold raised?
  repeat' split
  all_goals rfl

/-- A write elsewhere leaves the enable register alone. -/
theorem peek_writeByte_enable {a : UInt16} (v : UInt8) (h : a ≠ enableAddress) :
    (bus.writeByte a v).peek enableAddress = bus.peek enableAddress := by
  have hframe := bus.peek_writeByte_of_not_touches (a := a) (r := enableAddress) v (by decide)
  cases ht : Target.ofAddress a with
  | plain => rw [peek_writeByte_of_plain _ _ _ ht, if_neg h]
  | _ => exact hframe (by rw [ht]; decide)

theorem joypadPending_writeByte {a : UInt16} (v : UInt8) (hr : a ≠ requestAddress)
    (he : a ≠ enableAddress) : (bus.writeByte a v).joypadPending = bus.joypadPending := by
  refine joypadPending_congr (bus.peek_writeByte_enable v he) ?_
  rw [requests_writeByte bus v hr, hasBit_or, hasBit_raised?_joypad, Bool.or_false]

theorem joypadPending_passTime (n : Nat) :
    (bus.passTime n).joypadPending = bus.joypadPending := by
  refine joypadPending_congr (bus.peek_passTime_of_not_mem n (by decide)) ?_
  rw [requests_passTime, Clockwork.hasBit_requests_run n _ (by decide)]
  rfl

theorem joypadPending_request {i : Interrupts} (h : i.contains .joypad = false) :
    (bus.request i.bits).joypadPending = bus.joypadPending := by
  have hbit : hasBit i.bits InterruptSource.joypad.index = false := by
    rw [← h, Interrupts.contains]
    exact (and_mask_bne_zero _ (by decide)).symm
  refine joypadPending_congr (bus.peek_poke_of_ne _ (by decide)) ?_
  rw [requests_request, hasBit_or, hbit, Bool.or_false]

theorem joypadPending_insert (image : List UInt8) :
    (bus.insert image).joypadPending = bus.joypadPending := by
  rw [joypadPending, joypadPending, peek_insert_of_le _ _ (by decide),
    peek_insert_of_le _ _ (by decide)]

end Bus

namespace Machine

/-! ### Machines that can be reached -/

/-- What every operation preserves: the registers agree with the devices, and no cycles are left
over from the last step of the processor. -/
structure Sound (m : Machine) : Prop where
  consistent : m.board.bus.Consistent
  extraCycles : m.board.cpu.extraCycles = 0

/-- The bus after a reset is that after power-on, but for the cartridge. -/
theorem consistent_bus_reset [NoiseSource] (m : Machine) : m.reset.board.bus.Consistent := by
  have hfresh := Bus.consistent_powerOn m.config.ram.bytes m.board.bus.journal
  have hpeek {r : UInt16} (hr : 0xFF00 ≤ r) :
      m.reset.board.bus.peek r = (Bus.powerOn m.config.ram.bytes m.board.bus.journal).peek r := by
    refine (m.peek_reset r).trans (if_neg (Nat.not_lt.2 ?_))
    exact Nat.le_trans (by decide) (UInt16.le_iff_toNat_le.1 hr)
  have hbus := m.bus_reset
  generalize m.reset.board.bus = bus at hbus hpeek
  generalize Bus.powerOn m.config.ram.bytes m.board.bus.journal = fresh at hfresh hbus hpeek
  have hrequests : bus.requests = fresh.requests := hpeek (by decide)
  refine hfresh.of_peek ?_ ?_ ?_ (hrequests ▸ .refl _) fun r hr _ => hpeek hr
  · rw [hbus]
  · rw [hbus]
  · refine Bus.lcd_eq (hpeek (by decide)) (hpeek (by decide)) (hpeek (by decide))
      (hpeek (by decide)) ?_ ?_ ?_ <;> rw [hbus]

theorem consistent_access {bus : Bus} (h : bus.Consistent) (x : Sm83.Access) :
    (x.apply bus).Consistent := by
  cases x with
  | write a v => exact h.writeByte a v
  | note n => exact h.note n

namespace Sound

variable {m : Machine} (h : m.Sound)

include h

theorem step : m.step.2.Sound where
  consistent :=
    step_induction (P := fun _ => Bus.Consistent) (t := 0) h.consistent
      (fun x _ _ _ h => consistent_access h x) (fun n _ _ h => h.note n)
      fun n _ _ h => h.passTime n
  extraCycles := by
    rw [cpu_step, Board.extraCycles_handleInterrupts, cpu_settled, Board.extraCycles_step]

theorem insert (image : List UInt8) : (m.insert image).Sound where
  consistent := by
    have hinsert := h.consistent.insert image
    rcases bus_insert_eq_or m image with hbus | ⟨n, hbus⟩ <;> rw [hbus]
    · exact hinsert
    · exact hinsert.note n
  extraCycles := by
    rw [cpu_insert]
    exact h.extraCycles

/-- Every operation preserves it. -/
theorem perform [NoiseSource] (op : Operation) : (m.perform op).2.Sound := by
  cases op with
  | call c =>
    exact call_induction h (fun _ _ h => ⟨h.consistent, h.extraCycles⟩) c fun _ _ h => h.step
  | insert image => exact h.insert image
  | bus c =>
    have happly := h.consistent.apply c
    cases c with
    | read a => exact h
    | _ => exact ⟨happly, h.extraCycles⟩
  | execute =>
    exact ⟨Board.bus_step_induction h.consistent fun x _ _ h => consistent_access h x,
      Board.extraCycles_step _⟩
  | interrupt =>
    exact ⟨Board.bus_handleInterrupts_induction h.consistent
      fun x _ _ h => consistent_access h x,
      (Board.extraCycles_handleInterrupts _).trans h.extraCycles⟩
  | resetProcessor => exact ⟨h.consistent, rfl⟩
  | reset => exact ⟨consistent_bus_reset m, rfl⟩
  | _ => exact ⟨h.consistent, h.extraCycles⟩

end Sound

theorem sound_create [NoiseSource] (config : Config) (journal : Journal) :
    (create config journal).Sound where
  consistent := Bus.consistent_powerOn config.ram.bytes journal
  extraCycles := rfl

theorem sound_operate [NoiseSource] (config : Config) (journal : Journal) (ops : List Operation) :
    ((create config journal).operate ops).2.Sound :=
  operate_induction (P := Sound) (sound_create config journal) (fun _ op h => h.perform op) ops

/-! ### Steps of a frozen machine -/

/-- The processor is stopped, and the interrupt of the joypad is not both requested and enabled. -/
structure Frozen (m : Machine) : Prop where
  stopped : m.board.cpu.stopped = true
  quiet : m.board.bus.joypadPending = false

variable {m : Machine}

theorem Sound.joypadLow_eq_false (h : m.Sound) : m.board.joypadLow = false := by
  change (m.board.bus.peek joypadAddress &&& 0x0F != 0x0F) = false
  rw [h.consistent.unusedBits.joypad_released]
  rfl

/-- A stopped processor waits, whatever has been written to the register of the joypad. -/
theorem Sound.step_board (h : m.Sound) (hs : m.board.cpu.stopped = true) :
    m.board.step = ⟨Sm83.idleCycles, m.board, none⟩ :=
  Board.step_of_released hs h.joypadLow_eq_false h.extraCycles

/-- The interrupt logic finds the board of a stopped machine unchanged. -/
theorem Sound.settled_eq (h : m.Sound) (hs : m.board.cpu.stopped = true) : m.settled = m.board := by
  rw [settled, h.step_board hs]
  exact if_pos hs

/-- As long as the joypad does not call, a stopped board takes no interrupt and does not wake. -/
theorem handleInterrupts_of_stopped {s : Board Bus} (hs : s.cpu.stopped = true)
    (hquiet : s.bus.joypadPending = false) : s.handleInterrupts = (none, s) := by
  have hdeaf : s.hears = false := by
    rw [Board.hears_of_stopped hs, Bus.contains_joypad_pendingInterrupts, hquiet]
  have hrefuses : s.accepts = false := by rw [Board.accepts, hdeaf, Bool.false_and]
  rw [Board.handleInterrupts_of_not_accepts hrefuses, hdeaf, if_neg Bool.false_ne_true]

theorem caughtUp_of_stopped {s : Board Bus} (hs : s.cpu.stopped = true)
    (hquiet : s.bus.joypadPending = false) : caughtUp s = s := by
  rw [caughtUp, handleInterrupts_of_stopped hs hquiet]

namespace Frozen

/-- A step of a frozen machine counts a machine cycle and changes nothing else. -/
theorem step_eq (h : m.Frozen) (hm : m.Sound) :
    m.step = (4, { m with totalCycles := m.totalCycles + 4 }) := by
  have hsettled := hm.settled_eq h.stopped
  have hentry : m.entryCycles = 0 := by
    rw [entryCycles, hsettled, handleInterrupts_of_stopped h.stopped h.quiet]
    rfl
  have hboard : caughtUp m.settled = m.board := by
    rw [hsettled, caughtUp_of_stopped h.stopped h.quiet]
  rw [Machine.step_eq, hboard, hentry, hm.step_board h.stopped]
  rfl

theorem step (h : m.Frozen) (hm : m.Sound) : m.step.2.Frozen := by
  rw [h.step_eq hm]
  exact ⟨h.stopped, h.quiet⟩

/-- So do any number of steps. -/
theorem after_eq (h : m.Frozen) (hm : m.Sound) (n : Nat) :
    m.after n = { m with totalCycles := m.totalCycles + 4 * n } := by
  induction n generalizing m with
  | zero => rfl
  | succ n ih =>
    rw [after_succ, ih (h.step hm) hm.step, h.step_eq hm, Nat.mul_succ, Nat.add_comm (4 * n),
      ← Nat.add_assoc]

theorem step_after (h : m.Frozen) (hm : m.Sound) (n : Nat) : (m.after n).step.1 = 4 := by
  have hafter : (m.after n).Frozen ∧ (m.after n).Sound := by
    rw [h.after_eq hm]
    exact ⟨⟨h.stopped, h.quiet⟩, hm.consistent, hm.extraCycles⟩
  rw [hafter.1.step_eq hafter.2]

end Frozen

/-! ### What ends it -/

/-- Operations that may request or enable the interrupt of the joypad: a request that contains it,
and a write from outside to the request register or the enable register. -/
def Operation.CallsJoypad : Operation → Prop
  | .bus (.request i) => i.contains .joypad = true
  | .bus (.write a _) => a = requestAddress ∨ a = enableAddress
  | _ => False

/-- Such an operation does nothing to the processor. -/
theorem Operation.CallsJoypad.cpu_perform [NoiseSource] {op : Operation} (h : op.CallsJoypad)
    (m : Machine) :
    (m.perform op).2.board.cpu = m.board.cpu := by
  cases op with
  | bus c => cases c <;> rfl
  | _ => exact absurd h id

/-- Operations that start the processor anew. -/
def Operation.Restarts : Operation → Prop
  | .resetProcessor | .reset => True
  | _ => False

namespace Frozen

/-- A call of the bus leaves the interrupt of the joypad alone, unless it asks for it. -/
theorem quiet_apply (h : m.Frozen) {c : Bus.Call} (hc : ¬(Operation.bus c).CallsJoypad) :
    (m.board.bus.apply c).joypadPending = false := by
  rw [← h.quiet]
  cases c with
  | write a v =>
    obtain ⟨hr, he⟩ := not_or.1 hc
    exact m.board.bus.joypadPending_writeByte v hr he
  | tick n => exact m.board.bus.joypadPending_passTime n
  | request i => exact m.board.bus.joypadPending_request (Bool.eq_false_iff.2 hc)
  | insert image => exact m.board.bus.joypadPending_insert image
  | read | hook => rfl

theorem insert (h : m.Frozen) (image : List UInt8) : (m.insert image).Frozen where
  stopped := by
    rw [cpu_insert]
    exact h.stopped
  quiet := by
    have hinsert : (m.board.bus.insert image).joypadPending = false := by
      rw [Bus.joypadPending_insert]
      exact h.quiet
    rcases bus_insert_eq_or m image with hbus | ⟨n, hbus⟩ <;> rw [hbus] <;> exact hinsert

/-- No operation lets a frozen machine go on but one that asks for the joypad from outside, and one
that starts the processor anew. -/
theorem perform [NoiseSource] (h : m.Frozen) (hm : m.Sound) {op : Operation}
    (hcalls : ¬op.CallsJoypad) (hrestarts : ¬op.Restarts) : (m.perform op).2.Frozen := by
  cases op with
  | call c =>
    have hcall : (m.call c).2.Sound ∧ (m.call c).2.Frozen :=
      call_induction (P := fun m => m.Sound ∧ m.Frozen) ⟨hm, h⟩
        (fun _ _ h => ⟨⟨h.1.consistent, h.1.extraCycles⟩, h.2.stopped, h.2.quiet⟩) c
        fun _ _ h => ⟨h.1.step, h.2.step h.1⟩
    exact hcall.2
  | insert image => exact h.insert image
  | bus c =>
    cases c with
    | read a => exact h
    | _ => exact ⟨h.stopped, h.quiet_apply hcalls⟩
  | execute =>
    change Frozen { m with board := m.board.step.board }
    rw [hm.step_board h.stopped]
    exact h
  | interrupt =>
    change Frozen { m with board := m.board.handleInterrupts.2 }
    rw [handleInterrupts_of_stopped h.stopped h.quiet]
    exact h
  | resetProcessor | reset => exact absurd trivial hrestarts
  | _ => exact ⟨h.stopped, h.quiet⟩

/-- An operation leaves a frozen machine frozen, starts the processor anew, or leaves the interrupt
of the joypad pending. -/
theorem perform_or [NoiseSource] (h : m.Frozen) (hm : m.Sound) (op : Operation) :
    (m.perform op).2.Frozen ∨ op.Restarts ∨
      op.CallsJoypad ∧ (m.perform op).2.board.bus.joypadPending = true := by
  by_cases hrestarts : op.Restarts
  · exact .inr (.inl hrestarts)
  by_cases hcalls : op.CallsJoypad
  · have hstopped : (m.perform op).2.board.cpu.stopped = true := by
      rw [hcalls.cpu_perform]
      exact h.stopped
    rcases Bool.eq_false_or_eq_true (m.perform op).2.board.bus.joypadPending with hp | hp
    · exact .inr (.inr ⟨hcalls, hp⟩)
    · exact .inl ⟨hstopped, hp⟩
  · exact .inl (h.perform hm hcalls hrestarts)

/-- A machine that was frozen and runs again has been started anew, or was asked to resume: there
was an operation from outside, until which it stayed frozen, that left the interrupt of the joypad
requested and enabled. -/
theorem exists_of_running [NoiseSource] (h : m.Frozen) (hm : m.Sound) {ops : List Operation}
    (hruns : (m.operate ops).2.board.cpu.stopped = false) :
    ∃ before op rest, ops = before ++ op :: rest ∧ (m.operate before).2.Frozen ∧
      (op.Restarts ∨
        op.CallsJoypad ∧ ((m.operate before).2.perform op).2.board.bus.joypadPending = true) := by
  induction ops generalizing m with
  | nil => exact absurd (h.stopped.symm.trans hruns) (by decide)
  | cons op ops ih =>
    rcases h.perform_or hm op with hfrozen | hends
    · obtain ⟨before, last, rest, rfl, hbefore, hends⟩ := ih hfrozen (hm.perform op) hruns
      exact ⟨op :: before, last, rest, rfl, hbefore, hends⟩
    · exact ⟨[], op, ops, rfl, h, hends⟩

end Frozen

/-- Once the joypad calls, a stopped machine resumes with the next step. -/
theorem Sound.stopped_step_of_pending (hm : m.Sound) (hs : m.board.cpu.stopped = true)
    (hp : m.board.bus.joypadPending = true) : m.step.2.board.cpu.stopped = false := by
  rw [cpu_step, hm.settled_eq hs]
  refine Board.stopped_handleInterrupts_of_hears ?_
  rw [Board.hears_of_stopped hs, Bus.contains_joypad_pendingInterrupts, hp]

/-! ### Frozen machines in every state -/

/-- A frozen machine from now on. Steps count cycles and change nothing else. The machine is stopped
until it is started anew, or until an operation from outside leaves the interrupt of the joypad
requested and enabled; then it resumes with its next step. -/
structure StaysFrozen [NoiseSource] (m : Machine) : Prop where
  step_fst (n : Nat) : (m.after n).step.1 = 4
  after_eq (n : Nat) : m.after n = { m with totalCycles := m.totalCycles + 4 * n }
  asked (ops : List Operation) (h : (m.operate ops).2.board.cpu.stopped = false) :
    ∃ before op rest, ops = before ++ op :: rest ∧ (m.operate before).2.Frozen ∧
      (op.Restarts ∨
        op.CallsJoypad ∧ ((m.operate before).2.perform op).2.board.bus.joypadPending = true)
  resumes (ops : List Operation) (hs : (m.operate ops).2.board.cpu.stopped = true)
    (hp : (m.operate ops).2.board.bus.joypadPending = true) :
    (m.operate ops).2.step.2.board.cpu.stopped = false

/-- **`STOP` freezes the machine.** Whatever has been done to a machine since power-on, if it is
stopped and the interrupt of the joypad is not both requested and enabled, its steps take a machine
cycle each and leave everything but the count of cycles as it is, and only a call of the joypad from
outside lets it resume. -/
theorem staysFrozen_operate [NoiseSource] (config : Config) (journal : Journal)
    (ops : List Operation) (h : ((create config journal).operate ops).2.Frozen) :
    ((create config journal).operate ops).2.StaysFrozen where
  step_fst := h.step_after (sound_operate config journal ops)
  after_eq := h.after_eq (sound_operate config journal ops)
  asked _ hruns := h.exists_of_running (sound_operate config journal ops) hruns
  resumes later hs hp := by
    refine Sound.stopped_step_of_pending ?_ hs hp
    exact operate_induction (P := Sound) (sound_operate config journal ops)
      (fun _ op h => h.perform op) later

/-- Executing `STOP` freezes the machine if the joypad does not call already. -/
theorem frozen_step_of_stop (hm : m.board.Executes) (hop : m.board.nextByte = 0x10)
    (hquiet : m.board.bus.joypadPending = false) : m.step.2.Frozen := by
  have hstep := hm.step_stop hop
  have hstopped : m.board.step.board.cpu.stopped = true := by
    refine (congrArg Sm83.Control.stopped hstep.control).trans ?_
    rw [Sm83.Control.advance]
    split <;> rfl
  have hcpu : m.settled.cpu.stopped = true := by rwa [cpu_settled]
  have hbus : m.settled.bus.joypadPending = false := by
    rw [settled, settle, cpu_observe, if_pos hstopped]
    refine bus_observe_induction (P := fun bus => bus.joypadPending = false) _ _ _ _ ?_ fun _ => ?_
    all_goals rwa [← hstep.bus] at hquiet
  have hboard : m.step.2.board = m.settled := by
    rw [step_eq]
    exact caughtUp_of_stopped hcpu hbus
  constructor <;> rw [hboard]
  · exact hcpu
  · exact hbus

/-- A cartridge that holds nothing but `STOP`. -/
def stopImage : List UInt8 :=
  List.replicate romWindowSize 0x10

theorem operate_insert_step [NoiseSource] (m : Machine) (image : List UInt8) :
    (m.operate [.insert image, .call .step]).2 = (m.insert image).step.2 := rfl

/-- A machine that is about to execute the first instruction of the image, with no interrupt
enabled, freezes. -/
theorem frozen_stopImage [NoiseSource] (hcpu : m.board.cpu = .create .dmg)
    (hdisabled : m.board.bus.peek 0xFFFF = 0) :
    (m.operate [.insert stopImage, .call .step]).2.Frozen := by
  have hinserted : (m.insert stopImage).board.cpu = .create .dmg := (cpu_insert m _).trans hcpu
  have hpc : (Sm83.Cpu.create .dmg).regs.pc = 0x0100 := rfl
  rw [operate_insert_step]
  refine frozen_step_of_stop ?_ ?_ ?_
  · constructor <;> rw [hinserted] <;> rfl
  · rw [nextByte_eq, hinserted, hpc, peek_insert]
    exact peek_insert_replicate _ _ (by decide)
  · rw [Bus.joypadPending, peek_insert, Bus.peek_insert_of_le _ _ (by decide), hdisabled,
      UInt8.zero_and, UInt8.zero_and]
    rfl

/-- A cartridge that stops the processor at once. -/
theorem staysFrozen_stopImage :
    ((create {} .silent).operate [.insert stopImage, .call .step]).2.StaysFrozen :=
  staysFrozen_operate {} .silent [.insert stopImage, .call .step]
    (frozen_stopImage rfl (Bus.peek_powerOn _ _ (by decide)))

end Machine

end EightBit.GameBoy
