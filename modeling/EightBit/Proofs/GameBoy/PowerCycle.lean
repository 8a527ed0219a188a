import EightBit.Proofs.GameBoy.Clocks
import EightBit.Proofs.GameBoy.Notices
import EightBit.Proofs.Sm83.Costs

/-!
# Switching the machine off and on again

A reset leaves the cartridge in and nothing else: whatever has been done to a machine, through it or
directly to its processor and its bus, after a reset it cannot be told from one that was created
with the same choices and has the same bytes in its cartridge window. It answers as that one does,
whatever is done to both, and stays like it. Only two things remain: the notices that it has taken,
and, since the record of the bytes fetched is emptied by setting its length alone, the bytes that
stand in its buffer. No operation looks at either, and no entry of a trace shows what stands in its
buffer behind its bytes.

## Main definitions

* `Machine.Operation`, `Machine.perform`, `Machine.operate`: what a driver may do to a machine, what
  it answers, and several operations.
* `Machine.Alike`: machines that differ at most in their notices and in what stands in a buffer
  behind the bytes recorded.
* `Machine.PowerCycles`: a reset leads to a machine like one after power-on.

## Main results

* `Machine.Alike.perform`, `Machine.Alike.operate`: machines that are alike answer alike.
* `Machine.StaysWith.perform`: no operation changes what a reset depends on.
* `Machine.powerCycles_operate`: a reset after any operations.
-/

namespace EightBit

theorem Memory.getD_slice (m : Memory) (a : UInt16) (n i : Nat) (b : UInt8) :
    (m.slice a n).getD i b = if i < n then m.read (a + UInt16.ofNat i) else b := by
  rw [slice, List.getD_eq_getElem?_getD, List.getElem?_map]
  split
  next h => rw [List.getElem?_range h]; rfl
  next h =>
    rw [List.getElem?_eq_none (by simpa using h)]
    rfl

/-- Bytes read from the start of one memory and stored at the start of another. -/
theorem Memory.read_store_slice (m k : Memory) {n : Nat} (hn : n ≤ addressCount) (c : UInt16) :
    (m.store 0 (k.slice 0 n)).read c = if c.toNat < n then k.read c else m.read c := by
  have hlength : (k.slice 0 n).length ≤ addressCount := by
    rwa [slice, List.length_map, List.length_range]
  rw [read_store _ _ _ _ hlength, UInt16.sub_zero, getD_slice, UInt16.zero_add, UInt16.ofNat_toNat]

namespace GameBoy

open Sm83 (Board Registers)

namespace Machine

/-! ### Operations -/

/-- What a driver may do to a machine. -/
inductive Operation
  /-- A step, or the steps of a frame. -/
  | call (c : Call)
  /-- Puts a cartridge in. -/
  | insert (image : List UInt8)
  /-- A call of the bus, which may be a direct read or write, time, or an interrupt request. -/
  | bus (c : Bus.Call)
  /-- A step of the processor alone, for which no time passes. -/
  | execute
  /-- An occasion for the processor to take an interrupt. -/
  | interrupt
  /-- Changes the registers of the processor. -/
  | registers (f : Registers → Registers)
  | masterEnable (on : Bool)
  | halted (on : Bool)
  | latchHaltBug
  | resetProcessor
  | reset

/-- Changes the processor. -/
def mapCpu (m : Machine) (f : Sm83.Cpu → Sm83.Cpu) : Machine :=
  { m with board := { m.board with cpu := f m.board.cpu } }

/-- Does an operation. The first component is the number that it answers, if it answers one: cycles,
or the byte read. -/
def perform [NoiseSource] (m : Machine) : Operation → Option Nat × Machine
  | .call c => ((m.call c).1, (m.call c).2)
  | .insert image => (none, m.insert image)
  | .bus (.read a) => ((m.board.bus.peek a).toNat, m)
  | .bus c => (none, m.mapBus (·.apply c))
  | .execute => (m.board.step.cycles, { m with board := m.board.step.board })
  | .interrupt => (m.board.handleInterrupts.1, { m with board := m.board.handleInterrupts.2 })
  | .registers f => (none, { m with board := m.board.mapRegs f })
  | .masterEnable on => (none, m.mapCpu ({ · with ime := on }))
  | .halted on => (none, m.mapCpu ({ · with halted := on }))
  | .latchHaltBug => (none, m.mapCpu (·.latchHaltBug))
  | .resetProcessor => (none, m.mapCpu (·.reset))
  | .reset => (none, m.reset)

/-- The answers of several operations, and the machine after them, the first one first. -/
def operate [NoiseSource] (m : Machine) : List Operation → List (Option Nat) × Machine
  | [] => ([], m)
  | op :: ops =>
    let (answer, m) := m.perform op
    let (answers, m) := operate m ops
    (answer :: answers, m)

theorem operate_cons [NoiseSource] (m : Machine) (op : Operation) (ops : List Operation) :
    m.operate (op :: ops) =
      ((m.perform op).1 :: ((m.perform op).2.operate ops).1, ((m.perform op).2.operate ops).2) :=
  rfl

/-- What every operation preserves holds after any number of them. -/
theorem operate_induction [NoiseSource] {P : Machine → Prop} {m : Machine} (hm : P m)
    (hop : ∀ m op, P m → P (m.perform op).2) (ops : List Operation) : P (m.operate ops).2 := by
  induction ops generalizing m with
  | nil => exact hm
  | cons op ops ih =>
    rw [operate_cons]
    exact ih (hop m op hm)

/-! ### Machines that are alike -/

theorem alike_settle {s t : Board Bus} (h : s.Alike t) (n : Nat) :
    (settle s n).Alike (settle t n) := by
  have hstopped : t.cpu.stopped = s.cpu.stopped := by
    rw [h.cpu.rest]
    rfl
  rw [settle, settle, hstopped]
  split
  · exact h
  · exact ⟨h.cpu, congrArg (·.passTime n) h.bus⟩

theorem alike_caughtUp {s t : Board Bus} (h : s.Alike t) : (caughtUp s).Alike (caughtUp t) := by
  obtain ⟨hentry, hboard⟩ := h.handleInterrupts
  rw [caughtUp, caughtUp, hentry]
  cases s.handleInterrupts.1 with
  | none => exact hboard
  | some n => exact ⟨hboard.cpu, congrArg (·.passTime n) hboard.bus⟩

/-- Two machines that differ at most in their notices, and in what stands in the buffers of their
processors and of the entries of their traces behind the bytes recorded. -/
structure Alike (m n : Machine) : Prop where
  board : (m.board.map Bus.hushed).Alike (n.board.map Bus.hushed)
  overshoot : n.overshoot = m.overshoot
  totalCycles : n.totalCycles = m.totalCycles
  config : n.config = m.config
  trace : m.trace.Alike n.trace

theorem trace_observe (config : Config) (trace : TraceLog) (board : Board Bus)
    (executed : Option Sm83.Instruction) :
    (observe config trace board executed).1 =
      if config.trace then executed.elim trace fun i => trace.record (board.cpu.traceEntry i)
      else trace := by
  cases executed with
  | none =>
    rw [Option.elim_none, ite_self]
    rfl
  | some i =>
    cases h : config.trace with
    | true => simp [observe, h]
    | false =>
      simp only [observe, h, Bool.false_eq_true, if_false]
      split <;> rfl

namespace Alike

variable {m n : Machine} (h : m.Alike n)

include h

theorem cpu : Recording.Alike m.board.cpu n.board.cpu := h.board.cpu

theorem hushed_bus : n.board.bus.hushed = m.board.bus.hushed := h.board.bus

theorem memory : n.board.bus.memory = m.board.bus.memory := by
  have hmemory := congrArg Bus.memory h.hushed_bus
  exact hmemory

theorem romBytes : n.romBytes = m.romBytes :=
  congrArg (Memory.slice · 0 romWindowSize) h.memory

/-- Machines stay alike if their boards do and nothing else changes. -/
theorem setBoard {s t : Board Bus} (hboard : (s.map Bus.hushed).Alike (t.map Bus.hushed)) :
    { m with board := s }.Alike { n with board := t } :=
  ⟨hboard, h.overshoot, h.totalCycles, h.config, h.trace⟩

theorem mapBus {f g : Bus → Bus} (hbus : (g n.board.bus).hushed = (f m.board.bus).hushed) :
    (m.mapBus f).Alike (n.mapBus g) :=
  h.setBoard ⟨h.cpu, hbus⟩

/-- A change of the processor that leaves the record alone makes no difference. -/
theorem mapCpu (f : Sm83.Cpu → Sm83.Cpu) (hf : ∀ (c : Sm83.Cpu) (bs : InstructionBytes),
    f { c with fetched := bs } = { f c with fetched := bs }) : (m.mapCpu f).Alike (n.mapCpu f) :=
  h.setBoard ⟨h.cpu.map f hf, h.hushed_bus⟩

/-- The processors of machines that are alike take as long for a step, execute the same, and leave
boards that are alike. -/
theorem execute :
    n.board.step.cycles = m.board.step.cycles ∧ n.board.step.executed = m.board.step.executed ∧
      (m.board.step.board.map Bus.hushed).Alike (n.board.step.board.map Bus.hushed) := by
  have hstep := h.board.step
  rwa [Bus.hom_hushed.step, Bus.hom_hushed.step] at hstep

theorem settled : (m.settled.map Bus.hushed).Alike (n.settled.map Bus.hushed) := by
  obtain ⟨hcycles, -, hboard⟩ := h.board.step
  rw [map_hushed_settled, map_hushed_settled, hcycles]
  exact alike_settle hboard _

/-- Machines that are alike take as long for a step. -/
theorem step_fst : n.step.1 = m.step.1 := by
  have hentry := h.settled.handleInterrupts.1
  rw [Bus.hom_hushed.handleInterrupts, Bus.hom_hushed.handleInterrupts] at hentry
  rw [Machine.step_fst, Machine.step_fst, entryCycles, entryCycles, hentry, h.execute.1]

theorem trace_step : m.step.2.trace.Alike n.step.2.trace := by
  obtain ⟨-, hexecuted, hboard⟩ := h.execute
  rw [step_eq, step_eq]
  dsimp only
  rw [trace_observe, trace_observe, h.config, hexecuted]
  split
  next =>
    cases m.board.step.executed with
    | none => exact h.trace
    | some i => exact h.trace.record (Sm83.Cpu.shown_traceEntry hboard.cpu i)
  next => exact h.trace

/-- They are alike after it. -/
theorem step_snd : m.step.2.Alike n.step.2 where
  board := by
    rw [step_eq, step_eq]
    change ((caughtUp m.settled).map Bus.hushed).Alike ((caughtUp n.settled).map Bus.hushed)
    rw [← caughtUp_hushed, ← caughtUp_hushed]
    exact alike_caughtUp h.settled
  overshoot := by
    rw [step_eq, step_eq]
    exact h.overshoot
  totalCycles := by rw [totalCycles_step, totalCycles_step, h.totalCycles, h.step_fst]
  config := by
    rw [step_eq, step_eq]
    exact h.config
  trace := h.trace_step

theorem runFor (budget fuel ran : Nat) :
    (runFor budget fuel ran n).1 = (runFor budget fuel ran m).1 ∧
      (runFor budget fuel ran m).2.Alike (runFor budget fuel ran n).2 := by
  induction fuel generalizing ran m n with
  | zero => exact ⟨rfl, h⟩
  | succ fuel ih =>
    rw [Machine.runFor, Machine.runFor]
    split
    · dsimp only
      rw [h.step_fst]
      exact ih h.step_snd _
    · exact ⟨rfl, h⟩

theorem call (c : Call) : (n.call c).1 = (m.call c).1 ∧ (m.call c).2.Alike (n.call c).2 := by
  cases c with
  | step => exact ⟨h.step_fst, h.step_snd⟩
  | frame =>
    obtain ⟨hran, hafter⟩ := h.runFor (dotsPerFrame - m.overshoot) (dotsPerFrame - m.overshoot) 0
    rw [Machine.call, Machine.call, stepFrame, stepFrame, h.overshoot]
    exact ⟨hran, hafter.board, congrArg (· - _) hran, hafter.totalCycles, hafter.config,
      hafter.trace⟩

theorem insert (image : List UInt8) : (m.insert image).Alike (n.insert image) := by
  have hinsert (k : Machine) :
      (k.insert image).board.bus.hushed = k.board.bus.hushed.insert image := by
    rw [Bus.insert_hushed]
    rcases bus_insert_eq_or k image with hk | ⟨_, hk⟩ <;> rw [hk]
    exact Bus.hushed_note _ _
  rw [insert_eq m, insert_eq n]
  refine h.mapBus ?_
  rw [hinsert, hinsert, h.hushed_bus]

theorem reset [NoiseSource] : m.reset.Alike n.reset where
  board := by
    refine ⟨Sm83.Cpu.alike_reset h.cpu, ?_⟩
    change n.reset.board.bus.hushed = m.reset.board.bus.hushed
    rw [Machine.reset, Machine.reset, h.romBytes, h.config]
    rfl
  overshoot := rfl
  totalCycles := rfl
  config := h.config
  trace := by
    change (TraceLog.create m.config.traceLimit).Alike (TraceLog.create n.config.traceLimit)
    rw [h.config]
    exact .refl _

/-- Machines that are alike answer alike, and are alike afterwards. -/
theorem perform [NoiseSource] (op : Operation) :
    (n.perform op).1 = (m.perform op).1 ∧ (m.perform op).2.Alike (n.perform op).2 := by
  cases op with
  | call c => exact (h.call c).imp (congrArg some) id
  | insert image => exact ⟨rfl, h.insert image⟩
  | bus c =>
    have happly : (m.mapBus (·.apply c)).Alike (n.mapBus (·.apply c)) := h.mapBus (by
      rw [← Bus.apply_hushed, h.hushed_bus, Bus.apply_hushed])
    cases c with
    | read a =>
      exact ⟨congrArg (fun k : Memory => some (k.read a).toNat) h.memory, h⟩
    | _ => exact ⟨rfl, happly⟩
  | execute =>
    obtain ⟨hcycles, -, hboard⟩ := h.execute
    exact ⟨congrArg some hcycles, h.setBoard hboard⟩
  | interrupt =>
    have hentry := h.board.handleInterrupts
    rw [Bus.hom_hushed.handleInterrupts, Bus.hom_hushed.handleInterrupts] at hentry
    exact ⟨hentry.1, h.setBoard hentry.2⟩
  | registers f => exact ⟨rfl, h.mapCpu (fun c => { c with regs := f c.regs }) fun _ _ => rfl⟩
  | masterEnable on => exact ⟨rfl, h.mapCpu ({ · with ime := on }) fun _ _ => rfl⟩
  | halted on => exact ⟨rfl, h.mapCpu ({ · with halted := on }) fun _ _ => rfl⟩
  | latchHaltBug => exact ⟨rfl, h.mapCpu (·.latchHaltBug) fun _ _ => rfl⟩
  | resetProcessor => exact ⟨rfl, h.setBoard ⟨Sm83.Cpu.alike_reset h.cpu, h.hushed_bus⟩⟩
  | reset => exact ⟨rfl, h.reset⟩

theorem operate [NoiseSource] (ops : List Operation) :
    (n.operate ops).1 = (m.operate ops).1 ∧ (m.operate ops).2.Alike (n.operate ops).2 := by
  induction ops generalizing m n with
  | nil => exact ⟨rfl, h⟩
  | cons op ops ih =>
    obtain ⟨hanswer, hafter⟩ := h.perform op
    obtain ⟨hanswers, hend⟩ := ih hafter
    rw [operate_cons, operate_cons, hanswer, hanswers]
    exact ⟨rfl, hend⟩

end Alike

/-! ### What no operation changes -/

/-- The machine has the choices `c`, and its processor the state to start from. -/
structure StaysWith (c : Config) (m : Machine) : Prop where
  config : m.config = c
  boot : m.board.cpu.boot = c.boot

namespace StaysWith

variable {config : Config} {m : Machine} (h : m.StaysWith config)

include h

theorem step : m.step.2.StaysWith config where
  config := by
    rw [step_eq]
    exact h.config
  boot := by rw [cpu_step, Board.boot_handleInterrupts, cpu_settled, Board.boot_step, h.boot]

theorem perform [NoiseSource] (op : Operation) : (m.perform op).2.StaysWith config := by
  cases op with
  | call c => exact call_induction h (fun _ _ h => ⟨h.config, h.boot⟩) c fun _ _ h => h.step
  | insert image =>
    refine ⟨?_, ?_⟩
    · change (m.insert image).config = config
      rw [insert_eq]
      exact h.config
    · change (m.insert image).board.cpu.boot = config.boot
      rw [cpu_insert, h.boot]
  | bus c => cases c <;> exact ⟨h.config, h.boot⟩
  | execute => exact ⟨h.config, (Board.boot_step _).trans h.boot⟩
  | interrupt => exact ⟨h.config, (Board.boot_handleInterrupts _).trans h.boot⟩
  | _ => exact ⟨h.config, h.boot⟩

end StaysWith

/-! ### After a reset -/

/-- The memory that a reset leaves behind is that after power-on, with the bytes of the cartridge
window. -/
theorem peek_reset [NoiseSource] (m : Machine) (a : UInt16) :
    m.reset.board.bus.peek a =
      if a.toNat < romWindowSize then m.board.bus.peek a
      else (Bus.powerOn m.config.ram.bytes m.board.bus.journal).peek a := by
  have hmemory : m.reset.board.bus.memory =
      (Bus.powerOn m.config.ram.bytes m.board.bus.journal).memory.store 0 m.romBytes := by
    simp only [reset, create, Bus.mapMemory]
  have hsize : romWindowSize ≤ addressCount := by decide
  rw [Bus.peek, hmemory, romBytes, Memory.read_store_slice _ _ hsize]
  rfl

/-- The bytes of a cartridge window are what it reads as. -/
theorem romBytes_eq_iff {m n : Machine} :
    m.romBytes = n.romBytes ↔
      ∀ a : UInt16, a.toNat < romWindowSize → m.board.bus.peek a = n.board.bus.peek a := by
  constructor
  · intro h a ha
    have hbyte := congrArg (fun bytes : List UInt8 => bytes.getD a.toNat 0) h
    rw [romBytes, romBytes, Memory.getD_slice, Memory.getD_slice, if_pos ha, if_pos ha,
      UInt16.zero_add, UInt16.ofNat_toNat] at hbyte
    exact hbyte
  · intro h
    rw [romBytes, romBytes, Memory.slice, Memory.slice]
    refine List.map_congr_left fun i hi => ?_
    have hlt : i < romWindowSize := List.mem_range.1 hi
    rw [UInt16.zero_add]
    refine h _ ?_
    rwa [UInt16.toNat_ofNat_of_lt' (Nat.lt_trans hlt (by decide))]

/-- Without its notices the bus after power-on does not depend on the journal. -/
theorem hushed_busPowerOn (ram : RamBytes) (journal : Journal) :
    (Bus.powerOn ram journal).hushed = Bus.powerOn ram .silent := rfl

theorem peek_busPowerOn (ram : RamBytes) (j k : Journal) (a : UInt16) :
    (Bus.powerOn ram j).peek a = (Bus.powerOn ram k).peek a := by
  have hmemory (journal : Journal) :
      (Bus.powerOn ram journal).memory = (Bus.powerOn ram .silent).memory := by
    have hbus := congrArg Bus.memory (hushed_busPowerOn ram journal)
    exact hbus
  rw [Bus.peek, Bus.peek, hmemory j, hmemory k]

/-- A cartridge changes the memory of that bus alone. -/
theorem hushed_bus_powerOn [NoiseSource] (config : Config) (journal : Journal)
    (image : List UInt8) : (powerOn config journal image).board.bus.hushed =
      { (Bus.powerOn config.ram.bytes .silent) with
        memory := (powerOn config journal image).board.bus.memory } := by
  have hinsert : ((Bus.powerOn config.ram.bytes journal).insert image).hushed =
      { (Bus.powerOn config.ram.bytes .silent) with
        memory := ((Bus.powerOn config.ram.bytes journal).insert image).memory } := by
    rw [Bus.insert_eq]
    rfl
  have hbus : (create config journal).board.bus = Bus.powerOn config.ram.bytes journal := rfl
  rcases bus_insert_eq_or (create config journal) image with h | ⟨_, h⟩ <;>
    rw [powerOn, h, hbus]
  · exact hinsert
  · rw [Bus.hushed_note, hinsert]
    rfl

/-- So does a reset. -/
theorem bus_reset [NoiseSource] (m : Machine) :
    m.reset.board.bus =
      { (Bus.powerOn m.config.ram.bytes m.board.bus.journal) with
        memory := m.reset.board.bus.memory } := by
  simp only [reset, create, Bus.mapMemory]

theorem hushed_bus_reset [NoiseSource] (m : Machine) :
    m.reset.board.bus.hushed =
      { (Bus.powerOn m.config.ram.bytes .silent) with memory := m.reset.board.bus.memory } := by
  rw [bus_reset]
  generalize m.reset.board.bus.memory = memory
  rfl

section

variable [NoiseSource] {config : Config} {m : Machine} (h : m.StaysWith config) {journal : Journal}
  {image : List UInt8} (hrom : (powerOn config journal image).romBytes = m.romBytes)

include h hrom

theorem memory_reset :
    m.reset.board.bus.memory = (powerOn config journal image).board.bus.memory := by
  refine Memory.ext fun a => (m.peek_reset a).trans ?_
  change _ = (powerOn config journal image).board.bus.peek a
  split
  next ha => exact (romBytes_eq_iff.1 hrom a ha).symm
  next ha =>
    rw [h.config, peek_busPowerOn _ _ journal, powerOn, peek_insert,
      Bus.peek_insert_of_le _ _ (Nat.le_of_not_lt ha)]
    rfl

/-- A reset leads to a machine like the one after power-on with the same cartridge. -/
theorem alike_reset : m.reset.Alike (powerOn config journal image) where
  board := by
    refine ⟨?_, ?_⟩
    · change Recording.Alike m.board.cpu.reset (powerOn config journal image).board.cpu
      rw [powerOn, cpu_insert, m.board.cpu.reset_eq_create, h.boot]
      exact ⟨rfl, rfl⟩
    · change (powerOn config journal image).board.bus.hushed = m.reset.board.bus.hushed
      rw [hushed_bus_reset, hushed_bus_powerOn, memory_reset h hrom, h.config]
  overshoot := by
    rw [powerOn, insert_eq]
    rfl
  totalCycles := totalCycles_powerOn config journal image
  config := by
    rw [powerOn, insert_eq]
    exact h.config.symm
  trace := by
    have htrace : (powerOn config journal image).trace = m.reset.trace := by
      rw [powerOn, insert_eq]
      exact congrArg (fun c : Config => TraceLog.create c.traceLimit) h.config.symm
    rw [htrace]
    exact .refl _

end

/-- The processor is the very one after power-on exactly if its buffer holds what it held then. -/
theorem cpu_reset_eq_iff [NoiseSource] {config : Config} {m : Machine} (h : m.StaysWith config)
    (journal : Journal) (image : List UInt8) :
    m.reset.board.cpu = (powerOn config journal image).board.cpu ↔
      m.board.cpu.fetched.buffer = InstructionBytes.empty.buffer := by
  have hreset : m.reset.board.cpu =
      { Sm83.Cpu.create config.boot with fetched := m.board.cpu.fetched.clear } := by
    rw [← h.boot]
    rfl
  rw [hreset, powerOn, cpu_insert]
  constructor
  · intro hcpu
    exact congrArg (·.fetched.buffer) hcpu
  · intro hbuffer
    have hfetched : m.board.cpu.fetched.clear = .empty := by
      simp only [InstructionBytes.clear, InstructionBytes.empty, hbuffer]
    rw [hfetched]
    rfl

end Machine

end GameBoy

end EightBit
