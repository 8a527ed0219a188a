import EightBit.Proofs.Cpm.Steps
import Mathlib.Data.Nat.Count

/-!
# Calls to the operating system

A program calls the operating system by letting the processor execute the instruction at the system
entry. The machine makes the call whenever a step begins there, which is more: a processor that was
halted right in front of the entry executes nothing, and stays where it is, but the call is made in
every step all the same. Those idle steps are the whole difference between the calls that are made
and the instructions that are executed at the entry, and the only steps of a halted processor that
print.

## Main definitions

* `Machine.ExecutesAt`, `Machine.IdlesAtEntry`: the next step executes an instruction that begins at
  an address, and calls the operating system while the processor is halted.
* `Machine.HaltsAtEntry`: the next step executes a `HALT` right in front of the entry.
* `Machine.callCount`, `Machine.executionCount`, `Machine.idleCount`: how many steps of a run do so.

## Main results

* `Machine.callCount_eq_add`: the calls of a run.
* `Machine.idlesAtEntry_after_iff`: how a run comes to idle at the entry.
* `Machine.callCount_eq_executionCount_iff`: when every call is made by an instruction.
-/

namespace EightBit.Cpm.Machine

/-! ### One step -/

variable (m : Machine)

/-- The next step executes an instruction that begins at `a`. -/
def ExecutesAt (a : UInt16) : Prop := m.record?.map TraceEntry.address = some a

/-- The next step calls the operating system while the processor is halted. -/
def IdlesAtEntry : Prop := m.Serves ∧ m.board.cpu.halted = true

/-- The next step executes a `HALT` right in front of the system entry. -/
def HaltsAtEntry : Prop :=
  m.Active ∧ (∃ mode, m.called.step.executed = some (mode, .halt)) ∧
    m.step.2.board.cpu.regs.pc = systemEntry

instance (a : UInt16) : Decidable (m.ExecutesAt a) := inferInstanceAs (Decidable (_ = _))

instance : Decidable m.IdlesAtEntry := inferInstanceAs (Decidable (_ ∧ _))

variable {m}

theorem executesAt_iff {a : UInt16} :
    m.ExecutesAt a ↔ m.Active ∧ m.board.cpu.halted = false ∧ m.board.cpu.regs.pc = a := by
  rw [ExecutesAt, map_address_record?, ← and_assoc]
  split
  next h => rw [Option.some.injEq, and_iff_right h]
  next h => exact iff_of_false nofun fun hh => h hh.1

/-- An instruction is executed at the entry whenever the operating system is called, unless the
processor is halted. -/
theorem executesAt_systemEntry_iff :
    m.ExecutesAt systemEntry ↔ m.Serves ∧ m.board.cpu.halted = false := by
  rw [executesAt_iff]
  constructor
  · rintro ⟨hactive, hrun, hpc⟩
    exact ⟨⟨hactive.1, hpc⟩, hrun⟩
  · rintro ⟨hserves, hrun⟩
    exact ⟨hserves.active, hrun, hserves.2⟩

/-- A halted processor executes nothing, and prints only at the entry. -/
theorem printed_of_halted (h : m.board.cpu.halted = true) :
    m.printed = if m.IdlesAtEntry then callOutput m.board else [] := by
  rw [printed]
  exact if_congr ⟨fun hserves => ⟨hserves, h⟩, And.left⟩ rfl rfl

theorem cpu_step_of_active (h : m.Active) : m.step.2.board.cpu = m.called.step.board.cpu := by
  rw [step_of_active h]
  exact cpu_observe _ _ _ _

theorem finished_step_of_active (h : m.Active) : m.step.2.finished = false := by
  rw [step_of_active h]
  exact h.1

/-- A halted processor stays where it is. -/
theorem pc_step_of_halted (h : m.Active) (hhalted : m.board.cpu.halted = true) :
    m.step.2.board.cpu.regs.pc = m.board.cpu.regs.pc := by
  have hcalled : m.called.cpu.halted = true := by
    rw [cpu_called]
    exact hhalted
  rw [cpu_step_of_active h, Z80.Board.step_of_halted hcalled, ← cpu_called]
  rfl

/-- The processor idles at the entry after a step if it did so before, or came to a halt there. -/
theorem idlesAtEntry_step_iff : m.step.2.IdlesAtEntry ↔ m.IdlesAtEntry ∨ m.HaltsAtEntry := by
  by_cases h : m.Active
  · have hhalted : m.step.2.board.cpu.halted = true ↔
        m.board.cpu.halted = true ∨ ∃ mode, m.called.step.executed = some (mode, .halt) := by
      rw [cpu_step_of_active h, Z80.Board.halted_step_iff, cpu_called]
    have hfinished := finished_step_of_active h
    constructor
    · rintro ⟨⟨-, hpc⟩, hstep⟩
      rcases hhalted.1 hstep with hbefore | hexecutes
      · rw [pc_step_of_halted h hbefore] at hpc
        exact .inl ⟨⟨h.1, hpc⟩, hbefore⟩
      · exact .inr ⟨h, hexecutes, hpc⟩
    · rintro (⟨⟨-, hpc⟩, hbefore⟩ | ⟨-, hexecutes, hpc⟩)
      · exact ⟨⟨hfinished, (pc_step_of_halted h hbefore).trans hpc⟩, hhalted.2 (.inl hbefore)⟩
      · exact ⟨⟨hfinished, hpc⟩, hhalted.2 (.inr hexecutes)⟩
  · obtain ⟨-, hfinished, -⟩ := step_of_not_active h
    refine iff_of_false (fun hidles => ?_) ?_
    · exact Bool.false_ne_true (hidles.1.1.symm.trans hfinished)
    · rintro (⟨hserves, -⟩ | ⟨hactive, -⟩)
      · exact h hserves.active
      · exact h hactive

/-! ### Runs -/

variable (m)

/-- How many of `n` steps call the operating system. -/
def callCount (n : Nat) : Nat := Nat.count (fun k => (m.after k).Serves) n

/-- How many of `n` steps execute an instruction that begins at `a`. -/
def executionCount (a : UInt16) (n : Nat) : Nat := Nat.count (fun k => (m.after k).ExecutesAt a) n

/-- How many of `n` steps call the operating system while the processor is halted. -/
def idleCount (n : Nat) : Nat := Nat.count (fun k => (m.after k).IdlesAtEntry) n

/-- A call is made by an instruction at the entry or by an idle step. -/
theorem ite_serves :
    (if m.Serves then 1 else 0) =
      (if m.ExecutesAt systemEntry then 1 else 0) + if m.IdlesAtEntry then 1 else 0 := by
  simp only [executesAt_systemEntry_iff, IdlesAtEntry]
  by_cases h : m.board.cpu.halted = true <;> simp [h]

/-- The calls of a run are those of the instructions at the entry, and those of idle steps. -/
theorem callCount_eq_add (n : Nat) :
    m.callCount n = m.executionCount systemEntry n + m.idleCount n := by
  induction n with
  | zero => rfl
  | succ n ih =>
    rw [callCount, executionCount, idleCount] at ih ⊢
    rw [Nat.count_succ, Nat.count_succ, Nat.count_succ, ih]
    have hstep := (m.after n).ite_serves
    omega

/-- The processor idles at the entry if it did so at first, or has come to a halt there. Once it
does, it goes on. -/
theorem idlesAtEntry_after_iff (n : Nat) :
    (m.after n).IdlesAtEntry ↔ m.IdlesAtEntry ∨ ∃ k < n, (m.after k).HaltsAtEntry := by
  induction n with
  | zero => simp [after]
  | succ n ih =>
    rw [after_succ', idlesAtEntry_step_iff, ih, or_assoc, Nat.exists_lt_succ_right]

/-- **Calls to the operating system.** In a run of `n` steps the operating system is called as often
as an instruction is executed at its entry, exactly if the processor idles there in none of them. It
does so as soon as it has been halted right in front of the entry, and those steps are the only ones
of a halted processor that print. -/
theorem callCount_eq_executionCount_iff (m : Machine) (n : Nat) :
    (m.callCount n = m.executionCount systemEntry n ↔ ∀ k < n, ¬(m.after k).IdlesAtEntry) ∧
      (∀ k, (m.after k).IdlesAtEntry ↔ m.IdlesAtEntry ∨ ∃ j < k, (m.after j).HaltsAtEntry) ∧
      ∀ k, (m.after k).board.cpu.halted = true →
        (m.after (k + 1)).consoleBytes = (m.after k).consoleBytes ++
          if (m.after k).IdlesAtEntry then callOutput (m.after k).board else [] := by
  refine ⟨?_, m.idlesAtEntry_after_iff, fun k hhalted => ?_⟩
  · rw [callCount_eq_add, Nat.add_eq_left, idleCount, Nat.count_iff_forall_not]
  · rw [after_succ', consoleBytes_step, printed_of_halted hhalted]

/-! ### A halt in front of the entry -/

variable {m}

/-- A step at a `HALT` right in front of the system entry. -/
theorem step_of_haltOpcode (hgoes : m.finished = false) (hrun : m.board.cpu.halted = false)
    (hpc : m.board.cpu.regs.pc = 4) (hop : m.board.bus.memory.read 4 = haltOpcode) :
    m.HaltsAtEntry ∧ m.step.2.board.cpu.regs = { m.board.cpu.regs with pc := 5 }.refresh := by
  have hactive : m.Active := ⟨hgoes, by rw [hpc]; decide⟩
  have hcalled : m.called = m.board := if_neg (by rw [hpc]; decide)
  have hnext : m.board.nextByte = 0x76 := by
    rw [← hpc] at hop
    exact hop
  obtain ⟨hexecutes, hregs⟩ := Z80.Board.step_of_haltOpcode hrun hnext
  rw [hpc] at hregs
  have hstep : m.step.2.board.cpu.regs = { m.board.cpu.regs with pc := 5 }.refresh := by
    rw [cpu_step_of_active hactive, hcalled, hregs]
    rfl
  refine ⟨⟨hactive, ?_, ?_⟩, hstep⟩
  · rw [hcalled]
    exact hexecutes
  · rw [hstep]
    rfl

/-- A machine about to execute one, with a character in the registers of a console output. -/
def haltInFront : Machine :=
  let m := create {} .silent
  let cpu := { m.board.cpu with
    regs := { m.board.cpu.regs with pc := 4, c := consoleOutput, e := 0x5A } }
  { m with board := { cpu, bus := m.board.bus.mapMemory (·.write 4 haltOpcode) } }

/-- Not every call is made by an instruction: the character is printed although nothing is executed
at the entry. -/
theorem calls_haltInFront :
    haltInFront.callCount 2 = 1 ∧ haltInFront.executionCount systemEntry 2 = 0 ∧
      (haltInFront.after 1).board.cpu.halted = true ∧
      (haltInFront.after 2).consoleBytes = (haltInFront.after 1).consoleBytes ++ [0x5A] := by
  obtain ⟨hhalts, hregs⟩ : haltInFront.HaltsAtEntry ∧ _ :=
    step_of_haltOpcode rfl rfl rfl (Memory.read_write_self _ _ _)
  have hidles : (haltInFront.after 1).IdlesAtEntry := idlesAtEntry_step_iff.2 (.inr hhalts)
  have hfirst : ¬(haltInFront.after 0).Serves := fun h => absurd h.2 (by decide)
  have hnone : ¬(haltInFront.after 0).ExecutesAt systemEntry := fun h =>
    hfirst (executesAt_systemEntry_iff.1 h).1
  have hnone' : ¬(haltInFront.after 1).ExecutesAt systemEntry := fun h =>
    Bool.false_ne_true ((executesAt_systemEntry_iff.1 h).2.symm.trans hidles.2)
  have houtput : callOutput (haltInFront.after 1).board = [0x5A] := by
    have hregs : (haltInFront.after 1).board.cpu.regs = _ := hregs
    rw [callOutput, hregs]
    rfl
  refine ⟨?_, ?_, hidles.2, ?_⟩
  · simp [callCount, Nat.count_succ, hfirst, hidles.1]
  · simp [executionCount, Nat.count_succ, hnone, hnone']
  · rw [after_succ', consoleBytes_step, printed_of_halted hidles.2, if_pos hidles, houtput]

end EightBit.Cpm.Machine
