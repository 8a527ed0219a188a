import EightBit.Proofs.Memory
import EightBit.Proofs.Z80.BlockRuns

/-!
# Exchanging a block with a device

The repeating input and output instructions of the Z80 fill a block of memory with bytes of a
device, or give them to it. The count in `B` is also the upper half of the address of the device, so
that the device sees it go down. It is counted after a byte has been taken, but before one is given.

## Main definitions

* `Direction`: in or out.
* `Board.exchanged`: the surroundings after a number of bytes.
* `Board.KeepsOpcodesIn`, `Board.ExchangesBlock`: what a run must leave alone, and what it does.

## Main results

* `Board.handlesByte_exchange`, `Board.handles_exchangePlan`: one byte.
* `Board.exchangesBlock`: a whole run.
-/

namespace EightBit.Z80

/-- Which way the bytes of a block go. -/
inductive Direction where
  | input
  | output

/-- The block instruction. -/
def Direction.op : Direction → BlockOp
  | input => .input
  | output => .output

/-- Giving a byte to a device leaves memory as it is. -/
def Bus.KeepsReads (β : Type) [Bus β] : Prop :=
  ∀ (bus : β) (device : UInt16) (v : UInt8) (a : UInt16), read (portOut bus device v) a = read bus a

theorem PortBus.keepsReads : Bus.KeepsReads PortBus := fun _ _ _ _ => rfl

theorem LineBus.keepsReads : Bus.KeepsReads LineBus := fun _ _ _ _ => rfl

namespace Registers

/-- The registers with the pointer and the count of an exchange after `k` bytes. -/
def exchanged (increment : Bool) (k : Nat) (r : Registers) : Registers :=
  { r.setHl (Board.moved increment r.hl k) with b := r.b - UInt8.ofNat k }

theorem exchanged_zero (increment : Bool) (r : Registers) : exchanged increment 0 r = r := by
  have hcount : r.b - UInt8.ofNat 0 = r.b := UInt8.sub_zero _
  rw [exchanged, Board.moved_zero, hcount]
  simp only [setHl, hl, hiByte_word, loByte_word]

@[simp] theorem hl_exchanged (increment : Bool) (k : Nat) (r : Registers) :
    (exchanged increment k r).hl = Board.moved increment r.hl k :=
  word_hiByte_loByte _

theorem exchanged_succ (increment : Bool) (k : Nat) (r : Registers) :
    exchanged increment (k + 1) r = exchanged increment 1 (exchanged increment k r) := by
  have hcount : r.b - UInt8.ofNat (k + 1) = r.b - UInt8.ofNat k - UInt8.ofNat 1 := by
    rw [UInt8.ofNat_add]
    grind
  rw [exchanged, hcount, Board.moved_succ, exchanged.eq_def increment 1, hl_exchanged,
    Board.moved_one]
  rfl

end Registers

namespace Board

variable {β : Type} [Bus β] {d : Direction} {increment : Bool} {s t : Board β} {k : Nat}

/-! ### The count -/

/-- The bytes that a count in a register stands for: zero for 256. -/
def portCount (b : UInt8) : Nat :=
  if b = 0 then 256 else b.toNat

theorem portCount_pos (b : UInt8) : 0 < portCount b := by
  rw [portCount]
  split
  next => decide
  next h => exact Nat.pos_of_ne_zero fun hzero => h (UInt8.toNat_inj.1 hzero)

/-- A count reaches zero with the last byte. -/
theorem portCount_eq_zero_iff {b : UInt8} (hk : k < portCount b) :
    b - UInt8.ofNat (k + 1) = 0 ↔ k + 1 = portCount b := by
  have hcount : portCount b = if b.toNat = 0 then 256 else b.toNat :=
    if_congr UInt8.toNat_inj.symm rfl rfl
  have hzero : b - UInt8.ofNat (k + 1) = 0 ↔ UInt8.ofNat (k + 1) = b := by
    grind
  rw [hcount] at hk ⊢
  rw [hzero, ← UInt8.toNat_inj, UInt8.toNat_ofNat']
  exact succ_mod_eq_iff b.toNat_lt hk

@[simp] theorem sub_portCount (b : UInt8) : b - UInt8.ofNat (portCount b) = 0 := by
  rw [portCount]
  split
  next h => rw [h]; rfl
  next => rw [UInt8.ofNat_toNat, UInt8.sub_self]

/-! ### Bytes one after the other -/

/-- The surroundings after `n` bytes of an exchange, one after the other. The address of the device
has the count of the bytes in its upper half: those left to take, or to give after this one. -/
def exchanged (d : Direction) (increment : Bool) (s : Board β) : Nat → β
  | 0 => s.bus
  | k + 1 =>
    let bus := s.exchanged d increment k
    let a := moved increment s.cpu.regs.hl k
    let b := s.cpu.regs.b - UInt8.ofNat k
    match d with
    | .input =>
      let (v, bus) := portIn bus (word b s.cpu.regs.c)
      write bus a v
    | .output => portOut bus (word (b - 1) s.cpu.regs.c) (s.load a)

/-- Giving bytes to a device leaves memory as it is. -/
theorem read_exchanged_output (hbus : Bus.KeepsReads β) (k : Nat) (a : UInt16) :
    read (s.exchanged .output increment k) a = s.load a := by
  induction k with
  | zero => rfl
  | succ k ih =>
    rw [exchanged]
    exact (hbus _ _ _ _).trans ih

/-- The flags after a byte: sign and zero show the count. -/
def exchangeFlags (count : UInt8) : List (Flag × Bool) :=
  [(.z, count == 0), (.s, isNegative count), (.n, true)]

theorem exchanged_one (d : Direction) (increment : Bool) (t : Board β) :
    t.exchanged d increment 1 =
      match d with
      | .input =>
        let (v, bus) := portIn t.bus t.cpu.regs.bc
        write bus t.cpu.regs.hl v
      | .output =>
        portOut t.bus (word (t.cpu.regs.b - 1) t.cpu.regs.c) (t.load t.cpu.regs.hl) := by
  have hcount : t.cpu.regs.b - UInt8.ofNat 0 = t.cpu.regs.b := UInt8.sub_zero _
  simp only [exchanged, moved_zero, hcount]
  rfl

/-- The instruction does to a byte what an exchange of one byte does. -/
theorem blockByte_exchange (d : Direction) (increment : Bool) (t : Board β) :
    t.blockByte d.op increment = (t.cpu.regs.b - 1 != 0, {
      cpu := { t.cpu with
        regs := (t.cpu.regs.exchanged increment 1).setFlags (exchangeFlags (t.cpu.regs.b - 1)) }
      bus := t.exchanged d increment 1 }) := by
  rw [exchanged_one, Registers.exchanged, moved_one]
  cases d <;> rfl

theorem masks_exchangeFlags (count : UInt8) :
    Flag.masks (exchangeFlags count) = Flag.z.mask ||| Flag.s.mask ||| Flag.n.mask := by
  simp only [exchangeFlags, Flag.masks, List.foldr]
  decide

/-- A step exchanges a byte. The count tells whether there are more. -/
theorem handlesByte_exchange (h : t.AtBlock d.op increment) :
    t.HandlesByte d.op increment (t.cpu.regs.b - 1 != 0)
      ((t.cpu.regs.exchanged increment 1).setFlags (exchangeFlags (t.cpu.regs.b - 1)))
      (t.exchanged d increment 1) := by
  refine handlesByte h ?_
  rw [blockByte_exchange, exchanged_one, exchanged_one, pastEd_eq]
  cases d <;> rfl

/-! ### A run -/

/-- An exchange moves the pointer and counts, and sets the flags for each byte. -/
def exchangePlan (d : Direction) (increment : Bool) (s : Board β) : BlockPlan β where
  regs k := s.cpu.regs.exchanged increment k
  bus k := s.exchanged d increment k
  flags k := exchangeFlags (s.cpu.regs.b - UInt8.ofNat (k + 1))
  mask := Flag.z.mask ||| Flag.s.mask ||| Flag.n.mask
  f_regs _ := rfl
  masks_flags _ := masks_exchangeFlags _

section Run

variable (h : (s.exchangePlan d increment).Reached k s t)

include h

theorem b_of_reached : t.cpu.regs.b = s.cpu.regs.b - UInt8.ofNat k := by
  rw [h.regs]
  rfl

theorem c_of_reached : t.cpu.regs.c = s.cpu.regs.c := by
  rw [h.regs]
  rfl

theorem hl_of_reached : t.cpu.regs.hl = moved increment s.cpu.regs.hl k := by
  rw [h.regs]
  exact Registers.hl_exchanged increment k s.cpu.regs

/-- Another byte is one byte more. -/
theorem exchanged_one_of_reached (hbus : d = .output → Bus.KeepsReads β) :
    t.exchanged d increment 1 = s.exchanged d increment (k + 1) := by
  have hbc : t.cpu.regs.bc = word (s.cpu.regs.b - UInt8.ofNat k) s.cpu.regs.c :=
    congrArg₂ word (b_of_reached h) (c_of_reached h)
  rw [exchanged_one]
  cases d with
  | input =>
    rw [hbc, hl_of_reached h, h.bus]
    rfl
  | output =>
    rw [load, h.bus, b_of_reached h, c_of_reached h, hl_of_reached h]
    change portOut _ _ (read (s.exchanged .output increment k) _) = _
    rw [read_exchanged_output (hbus rfl)]
    rfl

/-- Every byte of an exchange is handled as planned. -/
theorem handles_exchangePlan (ht : t.AtBlock d.op increment) (hbus : d = .output → Bus.KeepsReads β)
    (hk : k < portCount s.cpu.regs.b) :
    (s.exchangePlan d increment).Handles d.op increment (portCount s.cpu.regs.b) k t := by
  have hcount : t.cpu.regs.b - 1 = s.cpu.regs.b - UInt8.ofNat (k + 1) := by
    rw [b_of_reached h, UInt8.ofNat_add]
    grind
  have hagain : (t.cpu.regs.b - 1 != 0) = decide (k + 1 < portCount s.cpu.regs.b) := by
    rw [hcount, Bool.eq_iff_iff, bne_iff_ne, decide_eq_true_iff, ne_eq, portCount_eq_zero_iff hk]
    omega
  have hregs : t.cpu.regs.exchanged increment 1 =
      { s.cpu.regs.exchanged increment (k + 1) with
        pc := t.cpu.regs.pc
        f := t.cpu.regs.f
        r := t.cpu.regs.r } := by
    rw [Registers.exchanged_succ increment k, h.regs]
    rfl
  have hbyte := handlesByte_exchange ht
  rwa [hagain, hregs, hcount, exchanged_one_of_reached h hbus] at hbyte

end Run

/-- No byte that is taken, except perhaps the last one, changes the opcodes. -/
def KeepsOpcodesIn (increment : Bool) (s : Board β) : Prop :=
  ∀ k < portCount s.cpu.regs.b, ∀ a ∈ [s.cpu.regs.pc, s.cpu.regs.pc + 1],
    read (s.exchanged .input increment k) a = s.load a

/-- Memory is as it was where no byte has been put. -/
theorem read_exchanged_input_of_ne {memory : β → Memory} (hflat : Bus.IsFlat memory)
    (hin : ∀ (bus : β) (device : UInt16), memory (portIn bus device).2 = memory bus) {a : UInt16}
    (h : ∀ i < k, moved increment s.cpu.regs.hl i ≠ a) :
    read (s.exchanged .input increment k) a = s.load a := by
  induction k with
  | zero => rfl
  | succ k ih =>
    rw [exchanged, hflat.read, hflat.write, Memory.read_write_of_ne _ _ (h k (Nat.lt_succ_self k)),
      hin, ← hflat.read]
    exact ih fun i hi => h i (Nat.lt_succ_of_lt hi)

/-- It is enough that no byte is put where the opcodes are. -/
theorem keepsOpcodesIn_of_ne {memory : β → Memory} (hflat : Bus.IsFlat memory)
    (hin : ∀ (bus : β) (device : UInt16), memory (portIn bus device).2 = memory bus)
    (h : ∀ k < portCount s.cpu.regs.b,
      moved increment s.cpu.regs.hl k ∉ [s.cpu.regs.pc, s.cpu.regs.pc + 1]) :
    s.KeepsOpcodesIn increment :=
  fun _ hk _ ha => read_exchanged_input_of_ne hflat hin
    fun i hi heq => h i (Nat.lt_trans hi hk) (heq ▸ ha)

/-- The run of a repeating exchange over `n` bytes, which counts `B` down to zero. -/
def ExchangesBlock (d : Direction) (increment : Bool) (n : Nat) (s : Board β) : Prop :=
  s.RunsBlock d.op increment n
    ({ s.cpu.regs.setHl (moved increment s.cpu.regs.hl n) with b := 0 }.setFlags
      [(.z, true), (.s, false), (.n, true)])
    (s.exchanged d increment n)

/-- A processor that runs exchanges as many bytes as `B` says, upwards or downwards. -/
theorem exchangesBlock (hs : s.AtBlock d.op increment) (hbus : d = .output → Bus.KeepsReads β)
    (hkeeps : d = .input → s.KeepsOpcodesIn increment) :
    s.ExchangesBlock d increment (portCount s.cpu.regs.b) := by
  have hn := portCount_pos s.cpu.regs.b
  have hopcodes (k : Nat) (hk : k < portCount s.cpu.regs.b) (a : UInt16)
      (ha : a ∈ [s.cpu.regs.pc, s.cpu.regs.pc + 1]) :
      read (s.exchanged d increment k) a = s.load a := by
    cases d with
    | input => exact hkeeps rfl k hk a ha
    | output => exact read_exchanged_output (hbus rfl) k a
  have hrun := BlockPlan.runsBlock (p := s.exchangePlan d increment) hs hn
    (Registers.exchanged_zero _ _) rfl hopcodes
    fun k hk t ht h => handles_exchangePlan h ht hbus hk
  have hlast : portCount s.cpu.regs.b - 1 + 1 = portCount s.cpu.regs.b := Nat.sub_add_cancel hn
  simp only [exchangePlan, Registers.exchanged, hlast, sub_portCount] at hrun
  exact hrun

/-- `INIR` or `OTIR` at address zero, with a count of zero and two bytes that a device supplies. -/
def exchangeRun (d : Direction) : Board PortBus where
  cpu := { Cpu.create with
    regs := { Cpu.resetRegisters with b := 0, c := 0x20, h := 0x10, l := 0 } }
  bus := { PortBus.ofFlat
      (.ofMemory (Memory.blank.store 0 [0xED, d.op.repeating true]) .silent) with
    inputs := [0x12, 0x34] }

theorem atBlock_exchangeRun (d : Direction) : (exchangeRun d).AtBlock d.op true := by
  have hload (a : UInt16) : (exchangeRun d).load a = [0xED, d.op.repeating true].getD a.toNat 0 :=
    Memory.read_store_zero_blank a (by simp [addressCount])
  exact ⟨rfl, hload 0, hload 1⟩

theorem keepsOpcodesIn_exchangeRun : (exchangeRun .input).KeepsOpcodesIn true :=
  keepsOpcodesIn_of_ne PortBus.isFlat (fun _ _ => rfl) fun k (hk : k < 256) => by
    have haddress : (moved true 0x1000 k).toNat = 0x1000 + k := by
      have hbase : (0x1000 : UInt16).toNat = 0x1000 := rfl
      rw [moved, if_pos rfl, UInt16.toNat_add, UInt16.toNat_ofNat', hbase]
      omega
    have hne (a : UInt16) (ha : a.toNat < 0x1000) : moved true 0x1000 k ≠ a := by
      rintro rfl
      omega
    change moved true 0x1000 k ∉ [0, 1]
    simp [hne 0 (by decide), hne 1 (by decide)]

theorem exchangesBlock_exchangeRun :
    (exchangeRun .input).AtBlock .input true ∧ (exchangeRun .input).KeepsOpcodesIn true ∧
      (exchangeRun .input).ExchangesBlock .input true 256 ∧
    (exchangeRun .output).AtBlock .output true ∧ Bus.KeepsReads PortBus ∧
      (exchangeRun .output).ExchangesBlock .output true 256 :=
  ⟨atBlock_exchangeRun .input, keepsOpcodesIn_exchangeRun,
    exchangesBlock (d := .input) (atBlock_exchangeRun .input) nofun
      fun _ => keepsOpcodesIn_exchangeRun,
    atBlock_exchangeRun .output, PortBus.keepsReads,
    exchangesBlock (d := .output) (atBlock_exchangeRun .output) (fun _ => PortBus.keepsReads) nofun⟩

/-- The same instruction in front of a halted processor. -/
def haltedExchangeRun : Board PortBus :=
  { exchangeRun .output with cpu := { (exchangeRun .output).cpu with halted := true } }

/-- A halted processor exchanges nothing. -/
theorem not_forall_exchangesBlock :
    ¬∀ s : Board PortBus, s.nextByte = 0xED →
      s.load (s.cpu.regs.pc + 1) = BlockOp.output.repeating true →
      s.ExchangesBlock .output true (portCount s.cpu.regs.b) := by
  intro h
  have hat := atBlock_exchangeRun .output
  have hrun := h haltedExchangeRun hat.first hat.second
  have hexecuted := (hrun.executed 0 (portCount_pos _)).2
  rw [after_zero, step_of_halted rfl] at hexecuted
  exact Option.some_ne_none _ hexecuted.symm

end Board

end EightBit.Z80
