import EightBit.Proofs.Cpm.SystemCalls
import Mathlib.Data.List.Nodup
import Mathlib.Data.List.TakeWhile
import Mathlib.Data.Nat.Find

/-!
# Calls to the operating system and the console

A call to the operating system is over in one step: the call itself takes no time, and the `RET` at
the entry leads back to the program. To the program a call is a return, and to the console it is a
character, a string, or nothing. A string begins anywhere and may run past the end of the address
space; it ends in front of the first end character, or if there is none, where it began.

## Main definitions

* `addressesFrom`: consecutive addresses.
* `Machine.Prints`: what a step adds to the console.
* `Machine.CallsAtOnce`: a step that calls the operating system.

## Main results

* `nodup_addressesFrom`, `mem_addressesFrom`: every address is met once on the way around.
* `Memory.takeWhile_slice`: the bytes in front of an end character.
* `Machine.callsAtOnce_of_serves`: a call, from the entry to the program.
-/

namespace EightBit

/-! ### Consecutive addresses -/

/-- The `n` addresses from `a` on. -/
def addressesFrom (a : UInt16) (n : Nat) : List UInt16 :=
  (List.range n).map fun i => a + .ofNat i

/-- No address is met twice on the way around. -/
theorem nodup_addressesFrom (a : UInt16) : (addressesFrom a addressCount).Nodup := by
  refine List.Nodup.map_on (fun i hi j hj h => ?_) List.nodup_range
  rw [UInt16.add_right_inj] at h
  rw [← UInt16.toNat_ofNat_of_lt' (List.mem_range.1 hi),
    ← UInt16.toNat_ofNat_of_lt' (List.mem_range.1 hj), h]

/-- An address is as far from the start as its difference says. -/
theorem add_ofNat_sub (a c : UInt16) : a + .ofNat (c - a).toNat = c := by
  rw [UInt16.ofNat_toNat, UInt16.add_comm, UInt16.sub_add_cancel]

/-- Every address is met on the way around. -/
theorem mem_addressesFrom (a c : UInt16) : c ∈ addressesFrom a addressCount :=
  List.mem_map.2 ⟨(c - a).toNat, List.mem_range.2 (Memory.lt_addressCount _), add_ofNat_sub a c⟩

/-! ### Bytes in front of an end character -/

namespace Memory

variable {m : Memory} {a : UInt16} {x : UInt8}

theorem slice_eq_map (m : Memory) (a : UInt16) (n : Nat) :
    m.slice a n = (addressesFrom a n).map m.read := by
  rw [slice, addressesFrom, List.map_map]
  rfl

theorem forall_mem_slice {n : Nat} (h : ∀ k < n, m.read (a + .ofNat k) ≠ x) :
    ∀ b ∈ m.slice a n, (b != x) = true := by
  intro b hb
  obtain ⟨k, hk, rfl⟩ := List.mem_map.1 hb
  simpa using h k (List.mem_range.1 hk)

/-- A string that nothing closes is all of memory. -/
theorem takeWhile_slice_of_forall (h : ∀ c, m.read c ≠ x) (n : Nat) :
    (m.slice a n).takeWhile (· != x) = m.slice a n :=
  List.takeWhile_eq_self_iff.2 (forall_mem_slice fun _ _ => h _)

/-- A string ends in front of the first `x`. -/
theorem takeWhile_slice {n k : Nat} (h : ∀ i < n, m.read (a + .ofNat i) ≠ x)
    (hx : m.read (a + .ofNat n) = x) (hk : n < k) :
    (m.slice a k).takeWhile (· != x) = m.slice a n := by
  obtain ⟨j, rfl⟩ := Nat.exists_eq_add_of_lt hk
  rw [Nat.add_assoc, slice_add, List.takeWhile_append_of_pos (forall_mem_slice h),
    slice_succ, List.takeWhile_cons_of_neg (by simpa using hx), List.append_nil]

/-- Going around, `x` is found somewhere first, or nowhere. -/
theorem first_or_none (m : Memory) (a : UInt16) (x : UInt8) :
    (∃ n < addressCount, m.read (a + .ofNat n) = x ∧ ∀ i < n, m.read (a + .ofNat i) ≠ x) ∨
      ∀ c, m.read c ≠ x := by
  by_cases h : ∃ n, m.read (a + .ofNat n) = x
  · -- Wherever `x` is, it is found on the first way around.
    have hfound : m.read (a + .ofNat (a + .ofNat (Nat.find h) - a).toNat) = x := by
      rw [add_ofNat_sub]
      exact Nat.find_spec h
    have hlt := Nat.lt_of_le_of_lt (Nat.find_min' h hfound) (lt_addressCount _)
    exact .inl ⟨Nat.find h, hlt, Nat.find_spec h, fun i hi => Nat.find_min h hi⟩
  · exact .inr fun c hc => h ⟨(c - a).toNat, by rwa [add_ofNat_sub]⟩

end Memory

/-! ### The `RET` at the entry -/

namespace Z80.Board

variable {β : Type} [Z80.Bus β] {s : Z80.Board β}

theorem settle_execute_ret (s : Z80.Board β) :
    (s.execute .ret).settle.cpu.regs =
        { s.cpu.regs with pc := s.stackTop, sp := s.cpu.regs.sp + 2 } ∧
      (s.execute .ret).settle.bus = s.bus ∧ (s.execute .ret).cpu.extraCycles = s.cpu.extraCycles :=
  ⟨rfl, rfl, rfl⟩

/-- `RET` takes the program counter off the stack. -/
theorem step_of_retOpcode (hrun : s.cpu.halted = false) (hop : s.nextByte = 0xC9) :
    s.step.cycles = 10 ∧
      s.step.board.cpu.regs =
        { s.cpu.regs.refresh with pc := s.stackTop, sp := s.cpu.regs.sp + 2 } ∧
      s.step.board.bus = s.bus := by
  have hret : Decode.primary 0xC9 = ⟨10, .ret⟩ := rfl
  obtain ⟨-, hboard⟩ := step_of_plain hrun hop (by decide)
  have hcycles := cycles_step_of_plain hrun hop (by decide)
  rw [hret] at hboard hcycles
  have hfetched : s.started.begin.skipOpcode.cpu.regs =
      { s.cpu.regs.refresh with pc := s.cpu.regs.pc + 1 } := rfl
  have htop : s.started.begin.skipOpcode.stackTop = s.stackTop := rfl
  obtain ⟨hregs, hbus, hextra⟩ := s.started.begin.skipOpcode.settle_execute_ret
  rw [hcycles, hboard, hextra, hregs, hbus, htop, hfetched]
  exact ⟨rfl, rfl, rfl⟩

end Z80.Board

namespace Cpm

/-- A call leaves memory alone. -/
theorem Machine.memory_printFrom (bus : Bus) (a : UInt16) (n : Nat) :
    (printFrom bus a n).memory = bus.memory := by
  induction n generalizing bus a with
  | zero => rfl
  | succ n ih =>
    rw [printFrom]
    split
    · rfl
    · exact ih _ _

namespace Machine

theorem memory_systemCall (s : Z80.Board Bus) : (systemCall s).bus.memory = s.bus.memory := by
  unfold systemCall
  dsimp only
  split
  · rfl
  split
  · exact memory_printFrom _ _ _
  · rfl

/-- So does recording. -/
theorem memory_observe (traced : Bool) (trace : TraceLog) (board : Z80.Board Bus)
    (executed : Option (Z80.IndexMode × Z80.Instruction)) :
    (observe traced trace board executed).2.bus.memory = board.bus.memory := by
  rcases observe_snd_eq_or traced trace board executed with h | ⟨n, h⟩ <;> rw [h]
  rfl

variable (m : Machine)

/-- The next step prints `bytes`. -/
def Prints (bytes : List UInt8) : Prop :=
  m.step.2.consoleBytes = m.consoleBytes ++ bytes

/-- The next step calls the operating system and returns to the program. -/
structure CallsAtOnce : Prop where
  cycles : m.step.1 = 10
  totalCycles : m.step.2.totalCycles = m.totalCycles + 10
  finished : m.step.2.finished = false
  /-- To the program a call is a return, and the refresh counter has counted it. -/
  regs : m.step.2.board.cpu.regs =
    { m.board.cpu.regs.refresh with pc := m.board.stackTop, sp := m.board.cpu.regs.sp + 2 }
  memory : m.step.2.board.bus.memory = m.board.bus.memory
  /-- A character is printed. -/
  character : m.board.cpu.regs.c = consoleOutput → m.Prints [m.board.cpu.regs.e]
  /-- A string is printed up to the first end character, or if there is none, once around. -/
  string : m.board.cpu.regs.c = printString →
    let a := m.board.cpu.regs.de
    let memory := m.board.bus.memory
    (∃ n < addressCount, memory.read (a + .ofNat n) = stringEnd ∧
        (∀ i < n, memory.read (a + .ofNat i) ≠ stringEnd) ∧
        m.Prints ((addressesFrom a n).map memory.read)) ∨
      (∀ c, memory.read c ≠ stringEnd) ∧
        m.Prints ((addressesFrom a addressCount).map memory.read)
  /-- Other functions print nothing. -/
  nothing : m.board.cpu.regs.c ≠ consoleOutput → m.board.cpu.regs.c ≠ printString → m.Prints []

variable {m}

theorem Serves.prints (h : m.Serves) : m.Prints (callOutput m.board) := by
  rw [Prints, consoleBytes_step, printed, if_pos h]

theorem prints_string (h : m.Serves) (hc : m.board.cpu.regs.c = printString) :
    m.Prints ((m.board.bus.memory.slice m.board.cpu.regs.de addressCount).takeWhile
      (· != stringEnd)) := by
  have hprints := h.prints
  rwa [callOutput, if_neg (by rw [hc]; decide), if_pos hc] at hprints

/-- **A call is over at once.** At the system entry, with the `RET` there in place, a step takes the
ten cycles of the `RET` and returns to the address on the stack; it changes nothing else but the
console, to which it adds a character, a string or nothing. A string that nothing closes is all of
memory, every address of it once. -/
theorem callsAtOnce_of_serves (h : m.Serves) (hrun : m.board.cpu.halted = false)
    (hret : m.board.bus.memory.read systemEntry = retOpcode) :
    m.CallsAtOnce ∧ (addressesFrom m.board.cpu.regs.de addressCount).Nodup ∧
      ∀ c, c ∈ addressesFrom m.board.cpu.regs.de addressCount := by
  have hcalled : m.called = systemCall m.board := if_pos h.2
  have hrun' : m.called.cpu.halted = false := by rwa [cpu_called]
  have hmemory : m.called.bus.memory = m.board.bus.memory := by rw [hcalled, memory_systemCall]
  have hop : m.called.nextByte = 0xC9 := by
    change m.called.bus.memory.read m.called.cpu.regs.pc = 0xC9
    rw [hmemory, cpu_called, h.2, hret]
    rfl
  obtain ⟨hcycles, hregs, hbus⟩ := Z80.Board.step_of_retOpcode hrun' hop
  have hstep : m.step.1 = 10 := by rw [step_of_active h.active, hcycles]
  refine ⟨⟨hstep, ?_, finished_step_of_active h.active, ?_, ?_, fun hc => ?_, fun hc => ?_,
    fun hchar hstring => ?_⟩, nodup_addressesFrom _, mem_addressesFrom _⟩
  · rw [totalCycles_step, hstep]
  · have htop : m.called.stackTop = m.board.stackTop := by
      change readWord m.called.bus m.called.cpu.regs.sp = readWord m.board.bus m.board.cpu.regs.sp
      rw [cpu_called]
      exact congrArg (fun memory : Memory => word (memory.read _) (memory.read _)) hmemory
    rw [cpu_step_of_active h.active, hregs, htop, cpu_called]
  · rw [step_of_active h.active, memory_observe, hbus, hmemory]
  · have hprints := h.prints
    rwa [callOutput, if_pos hc] at hprints
  · have hprints := prints_string h hc
    dsimp only
    rw [← Memory.slice_eq_map]
    rcases Memory.first_or_none m.board.bus.memory m.board.cpu.regs.de stringEnd with
      ⟨n, hn, hend, hbefore⟩ | hnone
    · rw [Memory.takeWhile_slice hbefore hend hn] at hprints
      exact .inl ⟨n, hn, hend, hbefore, by rwa [← Memory.slice_eq_map]⟩
    · rw [Memory.takeWhile_slice_of_forall hnone] at hprints
      exact .inr ⟨hnone, hprints⟩
  · have hprints := h.prints
    rwa [callOutput, if_neg hchar, if_neg hstring] at hprints

/-- A machine about to print a string that begins near the end of memory and that nothing closes. -/
def unclosedString : Machine where
  board :=
    { cpu := { Z80.Cpu.create with
        regs := { Z80.Registers.zero with
          pc := systemEntry, c := printString, d := 0xFF, e := 0xF0 } }
      bus := (Bus.create .silent).mapMemory (·.write systemEntry retOpcode) }
  traced := false
  trace := .create none
  finished := false
  totalCycles := 0

theorem read_unclosedString (c : UInt16) :
    unclosedString.board.bus.memory.read c = if systemEntry = c then retOpcode else 0 := by
  change (Memory.blank.write systemEntry retOpcode).read c = _
  rw [Memory.read_write, Memory.read_blank]

/-- All of memory is printed. -/
theorem callsAtOnce_unclosedString :
    unclosedString.Serves ∧ unclosedString.board.cpu.halted = false ∧
      unclosedString.board.bus.memory.read systemEntry = retOpcode ∧
      unclosedString.CallsAtOnce ∧ unclosedString.step.2.consoleBytes.length = addressCount := by
  have hret : unclosedString.board.bus.memory.read systemEntry = retOpcode := by
    rw [read_unclosedString, if_pos rfl]
  obtain ⟨hcall, -⟩ := callsAtOnce_of_serves (m := unclosedString) ⟨rfl, rfl⟩ rfl hret
  refine ⟨⟨rfl, rfl⟩, rfl, hret, hcall, ?_⟩
  rcases hcall.string rfl with ⟨n, -, hend, -⟩ | ⟨-, hprints⟩
  · rw [read_unclosedString] at hend
    split at hend
    · exact absurd hend (by decide)
    · exact absurd hend (by decide)
  · rw [hprints, List.length_append, List.length_map, addressesFrom, List.length_map,
      List.length_range]
    rfl

end Machine

end Cpm

end EightBit
