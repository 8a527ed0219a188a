import EightBit.Proofs.Z80.Acceptance
import EightBit.Proofs.Z80.Blocks
import EightBit.Proofs.Z80.EnableShadow

/-!
# Returning from a handler

A handler that does nothing but return is as good as none: the program goes on where it was
interrupted, with all its registers but the refresh counter, and accepts interrupts if it did
before. A non-maskable interrupt remembers this in the second flip-flop, from which `RETN` takes it.
A maskable one does not, so that its handler has to execute an `EI`; in the shadow of it, the
handler returns before the next interrupt is accepted.

## Main definitions

* `Board.NmiReturns`, `Board.IntReturns`: an interrupt is due, and its handler does nothing else.
* `Board.Enters`: an interrupt has been accepted, over plain memory.
* `Board.ReturnedTo`: the program has been interrupted, and goes on.

## Main results

* `Board.step_of_return`, `Board.step_of_eiOpcode`: the instructions of the handlers.
* `Board.Enters.returnedTo`: a return that finds the stack as it was on entry.
* `Board.returnedTo_step_of_nmi`, `Board.returnedTo_step_of_int`: the way there and back.
-/

namespace EightBit.Z80.Board

/-! ### The instructions of a handler -/

section

variable {β : Type} [Bus β] {s : Board β}

/-- What is found behind `ED`. -/
theorem step_of_ed (hrun : s.cpu.halted = false) (hop : s.nextByte = 0xED) :
    s.step.board =
      (s.pastEd.execute (Decode.ed (s.load (s.cpu.regs.pc + 1))).instruction).settle := by
  rw [step_eq_execute hrun, decoded_of_ed (s := s.started.begin) hop]
  rfl

/-- `RETN` and `RETI` take the program counter off the stack and the interrupt enable from the
second flip-flop. -/
theorem step_of_return (hrun : s.cpu.halted = false) (hop : s.nextByte = 0xED)
    (hreturn : (Decode.ed (s.load (s.cpu.regs.pc + 1))).instruction = .retn ∨
      (Decode.ed (s.load (s.cpu.regs.pc + 1))).instruction = .reti) :
    ∃ r, s.step.board.cpu.regs =
        { s.cpu.regs with pc := s.stackTop, sp := s.cpu.regs.sp + 2, r := r } ∧
      s.step.board.cpu.iff1 = s.cpu.iff2 ∧ s.step.board.cpu.iff2 = s.cpu.iff2 ∧
      s.step.board.bus = s.bus := by
  have hexecute : s.step.board = s.pastEd.returnFromInterrupt.settle := by
    rw [step_of_ed hrun hop]
    rcases hreturn with h | h <;> rw [h] <;> rfl
  rw [hexecute, pastEd_eq]
  exact ⟨_, rfl, rfl, rfl, rfl⟩

/-- `EI` sets both flip-flops, and holds maskable interrupts off. -/
theorem step_of_eiOpcode (hrun : s.cpu.halted = false) (hop : s.nextByte = 0xFB) :
    ∃ r, s.step.board.cpu.regs = { s.cpu.regs with pc := s.cpu.regs.pc + 1, r := r } ∧
      s.step.board.cpu.iff2 = true ∧ s.step.board.cpu.eiShadow = true ∧
      s.step.board.cpu.halted = false ∧ s.step.board.bus = s.bus := by
  obtain ⟨-, hboard⟩ := step_of_plain hrun hop (by decide)
  rw [hboard]
  exact ⟨_, rfl, rfl, rfl, hrun, rfl⟩

end

/-! ### The way into a handler -/

/-- The addresses of a handler are clear of the two bytes below the stack pointer. -/
def StackClear (s : Board PortBus) (code : List UInt16) : Prop :=
  ∀ a ∈ code, a ≠ s.cpu.regs.sp - 1 ∧ a ≠ s.cpu.regs.sp - 2

/-- A non-maskable interrupt is latched, and its handler is a `RETN` clear of the stack. -/
structure NmiReturns (s : Board PortBus) : Prop where
  nmi : s.bus.nmi = true
  ed : s.load 0x0066 = 0xED
  retn : (Decode.ed (s.load 0x0067)).instruction = .retn
  stack : s.StackClear [0x0066, 0x0067]

/-- A maskable interrupt is accepted in mode 1, and its handler is an `EI` and a `RETI` clear of the
stack. -/
structure IntReturns (s : Board PortBus) : Prop where
  nmi : s.bus.nmi = false
  int : s.bus.int = true
  iff1 : s.cpu.iff1 = true
  eiShadow : s.cpu.eiShadow = false
  im : s.cpu.im = 1
  ei : s.load 0x0038 = 0xFB
  ed : s.load 0x0039 = 0xED
  reti : (Decode.ed (s.load 0x003A)).instruction = .reti
  stack : s.StackClear [0x0038, 0x0039, 0x003A]

/-- From `s` to `t` an interrupt is accepted that leads to `vector`. -/
structure Enters (s t : Board PortBus) (vector : UInt16) (iff2 : Bool) : Prop where
  cpu : t.cpu = s.cpu.entered vector iff2
  stackTop : t.stackTop = s.cpu.regs.pc
  elsewhere : ∀ a, a ≠ s.cpu.regs.sp - 1 → a ≠ s.cpu.regs.sp - 2 → t.load a = s.load a
  nmi : t.bus.nmi = false

/-- The program that `s` was interrupted in goes on at `t`, accepting interrupts if it
did before. -/
structure ReturnedTo (s t : Board PortBus) : Prop where
  regs : t.cpu.regs = { s.cpu.regs with r := t.cpu.regs.r }
  iff1 : t.cpu.iff1 = s.cpu.iff1
  elsewhere : ∀ a, a ≠ s.cpu.regs.sp - 1 → a ≠ s.cpu.regs.sp - 2 → t.load a = s.load a

variable {s t u : Board PortBus} {vector : UInt16} {iff2 : Bool}

/-- Notices change neither memory nor the latch. -/
theorem foldl_note (notices : List Notice) (bus : PortBus) :
    (notices.foldl (fun bus n => note n bus) bus).flat.memory = bus.flat.memory ∧
      (notices.foldl (fun bus n => note n bus) bus).nmi = bus.nmi := by
  induction notices generalizing bus with
  | nil => exact ⟨rfl, rfl⟩
  | cons n notices ih => exact ih (note n bus)

/-- A board with the program counter on the stack, but for notices. -/
theorem enters_of_saved (bus : PortBus) (notices : List Notice)
    (hmemory : bus.flat.memory = s.bus.flat.memory) (hnmi : bus.nmi = false)
    (hcpu : t.cpu = s.cpu.entered vector iff2)
    (hbus : t.bus = notices.foldl (fun bus n => note n bus) (s.saved bus)) :
    s.Enters t vector iff2 := by
  obtain ⟨hnotes, hlatch⟩ := foldl_note notices (s.saved bus)
  have hload (a : UInt16) : t.load a = (s.saved bus).flat.memory.read a := by
    rw [← hnotes, ← hbus]
    rfl
  refine ⟨hcpu, ?_, fun a hu hl => ?_, ?_⟩
  · have htop := bus.flat.readWord_pushWord s.cpu.regs.sp s.cpu.regs.pc
    rw [stackTop, hcpu]
    change word (t.load _) (t.load _) = _
    rw [hload, hload]
    exact htop
  · rw [hload]
    exact (Memory.read_write_of_ne _ _ hl.symm).trans
      ((Memory.read_write_of_ne _ _ hu.symm).trans (congrArg (·.read a) hmemory))
  · rw [hbus, hlatch]
    exact hnmi

theorem enters_of_nmi (hnmi : s.bus.nmi = true) :
    s.handleInterrupts.1 = some 11 ∧ s.Enters s.handleInterrupts.2 0x0066 s.cpu.iff1 := by
  rw [s.answersInterrupts.nonMaskable hnmi]
  exact ⟨rfl, enters_of_saved { s.bus with nmi := false } [_] rfl rfl rfl rfl⟩

theorem enters_of_int (h : s.IntReturns) :
    s.handleInterrupts.1 = some 13 ∧ s.Enters s.handleInterrupts.2 0x0038 false := by
  obtain ⟨vector, cycles, haccepts⟩ :=
    s.answersInterrupts.maskable h.nmi h.iff1 h.eiShadow h.int
  obtain ⟨rfl, rfl⟩ := haccepts.leadsTo.mode1 h.im
  obtain ⟨notices, hbus⟩ := haccepts.bus
  exact ⟨haccepts.cost,
    enters_of_saved { s.bus with nmi := false } notices rfl rfl haccepts.cpu hbus⟩

/-! ### There and back -/

namespace Enters

/-- The handler is found in memory as it was before the interrupt. -/
theorem load_of_mem (h : s.Enters t vector iff2) {code : List UInt16} (hs : s.StackClear code)
    {a : UInt16} (ha : a ∈ code) : t.load a = s.load a :=
  h.elsewhere a (hs a ha).1 (hs a ha).2

/-- A handler that executes a return where it finds the stack as it was on entry leads back to the
program, with interrupts enabled as the second flip-flop says. -/
theorem returnedTo (h : s.Enters t vector iff2) {pc : UInt16} {r : UInt8}
    (hregs : u.cpu.regs = { t.cpu.regs with pc := pc, r := r }) (hrun : u.cpu.halted = false)
    (hbus : u.bus = t.bus) (hed : u.nextByte = 0xED)
    (hreturn : (Decode.ed (u.load (u.cpu.regs.pc + 1))).instruction = .retn ∨
      (Decode.ed (u.load (u.cpu.regs.pc + 1))).instruction = .reti)
    (hiff : u.cpu.iff2 = s.cpu.iff1) :
    s.ReturnedTo u.step.board ∧ u.step.board.cpu.iff2 = u.cpu.iff2 := by
  obtain ⟨r', hback, hiff1, hiff2, hkept⟩ := step_of_return hrun hed hreturn
  have htop : u.stackTop = s.cpu.regs.pc := by
    rw [← h.stackTop, Board.stackTop, Board.stackTop, hbus, hregs]
  refine ⟨⟨?_, hiff1.trans hiff, fun a hu hl => ?_⟩, hiff2⟩
  · rw [hback, htop, hregs, h.cpu]
    dsimp only [Cpu.entered]
    rw [UInt16.sub_add_cancel]
    rfl
  · rw [← h.elsewhere a hu hl, load, hkept, hbus, load]

end Enters

/-- A `RETN` at once leads from the handler of a non-maskable interrupt back to the program. -/
theorem returnedTo_step_of_nmi (h : s.NmiReturns) :
    s.ReturnedTo s.handleInterrupts.2.step.board := by
  obtain ⟨-, henters⟩ := enters_of_nmi h.nmi
  have hed : s.handleInterrupts.2.load 0x0066 = 0xED :=
    (henters.load_of_mem h.stack (by simp)).trans h.ed
  have hretn : (Decode.ed (s.handleInterrupts.2.load 0x0067)).instruction = .retn :=
    (congrArg (fun b => (Decode.ed b).instruction)
      (henters.load_of_mem h.stack (by simp))).trans h.retn
  have hpc : s.handleInterrupts.2.cpu.regs.pc = 0x0066 := congrArg (·.regs.pc) henters.cpu
  refine (henters.returnedTo rfl (congrArg Cpu.halted henters.cpu) rfl ?_ (.inl ?_)
    (congrArg Cpu.iff2 henters.cpu)).1
  · rw [nextByte, hpc, hed]
  · rw [hpc]
    exact hretn

/-- An `EI` and a `RETI` lead from the handler of a maskable interrupt back to the program, and no
interrupt is accepted between the two. -/
theorem returnedTo_step_of_int (h : s.IntReturns) :
    s.handleInterrupts.2.step.board.handleInterrupts =
        (none, s.handleInterrupts.2.step.board) ∧
      s.ReturnedTo s.handleInterrupts.2.step.board.step.board ∧
      s.handleInterrupts.2.step.board.step.board.cpu.iff2 = true := by
  obtain ⟨-, henters⟩ := enters_of_int h
  have hload {a : UInt16} (ha : a ∈ [(0x0038 : UInt16), 0x0039, 0x003A]) :
      s.handleInterrupts.2.load a = s.load a := henters.load_of_mem h.stack ha
  have hpc : s.handleInterrupts.2.cpu.regs.pc = 0x0038 := congrArg (·.regs.pc) henters.cpu
  have hei : s.handleInterrupts.2.nextByte = 0xFB := by
    rw [nextByte, hpc, hload (by simp), h.ei]
  obtain ⟨r, hregs, hiff2, hshadow, hrun, hbus⟩ :=
    step_of_eiOpcode (congrArg Cpu.halted henters.cpu) hei
  have hnmi : s.handleInterrupts.2.step.board.bus.nmi = false :=
    (congrArg PortBus.nmi hbus).trans henters.nmi
  have hpc' : s.handleInterrupts.2.step.board.cpu.regs.pc = 0x0039 := by rw [hregs, hpc]; rfl
  have hload' {a : UInt16} (ha : a ∈ [(0x0038 : UInt16), 0x0039, 0x003A]) :
      s.handleInterrupts.2.step.board.load a = s.load a := by
    rw [load, hbus]
    exact hload ha
  obtain ⟨hreturned, hkept⟩ := henters.returnedTo hregs hrun hbus
    (by rw [nextByte, hpc', hload' (by simp), h.ed])
    (.inr (by rw [hpc', show (0x0039 : UInt16) + 1 = 0x003A from rfl, hload' (by simp), h.reti]))
    (hiff2.trans h.iff1.symm)
  exact ⟨handleInterrupts_of_eiShadow hnmi hshadow, hreturned, hkept.trans hiff2⟩

/-- The handler of non-maskable interrupts is a `RETN`, and one is latched. -/
def retnBoard : Board PortBus where
  cpu := .create
  bus := { PortBus.ofFlat (.ofMemory (Memory.blank.store 0x0066 [0xED, 0x45]) .silent) with
    nmi := true }

theorem nmiReturns_retnBoard : retnBoard.NmiReturns := by
  have hload (a : UInt16) : retnBoard.load a = [0xED, 0x45].getD (a - 0x0066).toNat 0 :=
    Memory.read_store_blank 0x0066 a (by decide)
  have hclear : retnBoard.StackClear [0x0066, 0x0067] :=
    List.forall_mem_cons.2 ⟨by decide, List.forall_mem_singleton.2 (by decide)⟩
  refine ⟨rfl, hload 0x0066, ?_, hclear⟩
  rw [hload 0x0067]
  rfl

/-- The handler of maskable interrupts in mode 1 is an `EI` and a `RETI`, and the line is high. -/
def eiRetiBoard : Board PortBus where
  cpu := { Cpu.create with iff1 := true, iff2 := true, im := 1 }
  bus := { PortBus.ofFlat (.ofMemory (Memory.blank.store 0x0038 [0xFB, 0xED, 0x4D]) .silent) with
    int := true }

theorem intReturns_eiRetiBoard : eiRetiBoard.IntReturns := by
  have hload (a : UInt16) :
      eiRetiBoard.load a = [0xFB, 0xED, 0x4D].getD (a - 0x0038).toNat 0 :=
    Memory.read_store_blank 0x0038 a (by decide)
  have hclear : eiRetiBoard.StackClear [0x0038, 0x0039, 0x003A] :=
    List.forall_mem_cons.2 ⟨by decide,
      List.forall_mem_cons.2 ⟨by decide, List.forall_mem_singleton.2 (by decide)⟩⟩
  refine ⟨rfl, rfl, rfl, rfl, rfl, hload 0x0038, hload 0x0039, ?_, hclear⟩
  rw [hload 0x003A]
  rfl

end EightBit.Z80.Board
