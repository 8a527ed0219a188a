import EightBit.Proofs.Shared.Alike
import EightBit.Proofs.Z80.Length

/-!
# Instructions that both processors execute alike

Most opcodes without a prefix mean the same to the SM83 and to the Z80, and so does the page behind
`CB`, except for one row of shifts. From boards that are alike, a step on such an opcode leads to
boards that are alike.

## Main definitions

* `isShared`, `SharesOpcode`: the opcodes in question.
* `Sm83.Instruction.counterpart?`: the instruction of the Z80 that does the same.

## Main results

* `counterpart?_primary`, `counterpart?_cb`: the decoders find counterparts.
* `Underway.execute`: counterparts have the same effect.
* `boardsAlike_step`: a step keeps boards alike.
-/

namespace EightBit

/-- Whether an opcode without a prefix means the same to both processors. -/
def isShared (op : UInt8) : Bool :=
  op == 0x00 -- `NOP`
  || op &&& 0xCF == 0x01 -- `LD rr,nn`
  || op &&& 0xC7 == 0x06 -- `LD r,n`
  || op &&& 0xC0 == 0x40 && op != 0x76 -- `LD r,r` but not `HALT`
  || op &&& 0xE7 == 0x02 -- `LD (BC),A`, `LD (DE),A`, `LD A,(BC)`, `LD A,(DE)`
  || op == 0xF9 -- `LD SP,HL`
  || op &&& 0xC6 == 0x04 -- `INC r`, `DEC r`
  || op &&& 0xC7 == 0x03 -- `INC rr`, `DEC rr`
  || op &&& 0xCF == 0x09 -- `ADD HL,rr`
  || op &&& 0xC0 == 0x80 || op &&& 0xC7 == 0xC6 -- arithmetic with a byte operand
  || op == 0x2F || op == 0x37 -- `CPL`, `SCF`
  || op == 0x18 || op &&& 0xE7 == 0x20 -- `JR`
  || op == 0xC3 || op &&& 0xE7 == 0xC2 -- `JP`
  || op == 0xCD || op &&& 0xE7 == 0xC4 -- `CALL`
  || op == 0xC9 || op &&& 0xE7 == 0xC0 -- `RET`
  || op == 0xE9 -- `JP (HL)`
  || op &&& 0xC7 == 0xC7 -- `RST`
  || op &&& 0xCB == 0xC1 && op &&& 0x30 != 0x30 -- `PUSH rr`, `POP rr` but not of `AF`

/-- The bytes of an opcode that means the same to both processors: one without a prefix, or one
behind `CB` other than `30` to `37`. -/
def SharesOpcode (op next : UInt8) : Prop :=
  isShared op = true ∨ op = 0xCB ∧ next &&& 0xF8 ≠ 0x30

/-- The instruction of the Z80 that does the same, if there is one. -/
def Sm83.Instruction.counterpart? : Sm83.Instruction → Option Z80.Instruction
  | .nop => some .nop
  | .load dst src => some (.load dst src)
  | .loadImm dst => some (.loadImm dst)
  | .loadPairImm p => if p = .af then none else some (.loadPairImm p)
  | .storeIndirect .bc => some .storeBc
  | .storeIndirect .de => some .storeDe
  | .loadIndirect .bc => some .loadBc
  | .loadIndirect .de => some .loadDe
  | .loadSpHl => some .loadSpHl
  | .inc8 x => some (.inc8 x)
  | .dec8 x => some (.dec8 x)
  | .inc16 p => if p = .af then none else some (.inc16 p)
  | .dec16 p => if p = .af then none else some (.dec16 p)
  | .addHl p => if p = .af then none else some (.addHl p)
  | .alu op src => some (.alu op src)
  | .aluImm op => some (.aluImm op)
  | .cpl => some .cpl
  | .scf => some .scf
  | .jr => some .jr
  | .jrIf cc => some (.jrIf cc.shared)
  | .jp => some .jp
  | .jpIf cc => some (.jpIf cc.shared)
  | .jpHl => some .jpHl
  | .call => some .call
  | .callIf cc => some (.callIf cc.shared)
  | .ret => some .ret
  | .retIf cc => some (.retIf cc.shared)
  | .rst vector => some (.rst vector)
  | .push p => if p = .af then none else some (.push p)
  | .pop p => if p = .af then none else some (.pop p)
  | .shift op x => some (.shift op x)
  | .bit k x => some (.bit k x)
  | .res k x => some (.res k x)
  | .set k x => some (.set k x)
  | _ => none

/-! ### The decoders -/

theorem counterpart?_primary : ∀ op, isShared op = true →
    (Sm83.Decode.primary op).instruction.counterpart? =
      some (Z80.Decode.primary op).instruction :=
  forall_byte (by decide)

theorem counterpart?_cb : ∀ op, op &&& 0xF8 ≠ 0x30 →
    (Sm83.Decode.cb op).instruction.counterpart? = some (Z80.Decode.cb op).instruction :=
  forall_byte (by decide)

theorem isShared_not_mem : ∀ op, isShared op = true → op ∉ Z80.prefixBytes :=
  forall_byte (by decide)

namespace Underway

variable {s : Sm83.Board FlatBus} {t : Z80.Board Z80.PortBus} (h : Underway s t)
include h

theorem skipOpcode : Underway s.skip t.skipOpcode :=
  { h.skip with regs := { h.skip.regs with } }

/-! ### Executing -/

theorem indexValue : t.indexValue = t.cpu.regs.hl := by
  rw [Z80.Board.indexValue, h.mode]
  rfl

theorem pairValue (p : Pair) : t.pairValue p = t.cpu.regs.pair p := by
  rw [Z80.Board.pairValue, h.mode]
  cases p <;> rfl

theorem setPairValue {p : Pair} (hp : p ≠ .af) (w : UInt16) :
    Underway (s.mapRegs (·.setPair p w)) (t.setPairValue p w) := by
  have hmode : t.setPairValue p w = t.mapRegs (·.setPair p w) := by
    rw [Z80.Board.setPairValue, h.mode]
    cases p <;> rfl
  rw [hmode]
  exact h.mapRegs (h.regs.setPair hp w)

/-- A pair is replaced by what a function makes of it. -/
theorem mapPair {p : Pair} (hp : p ≠ .af) (f : UInt16 → UInt16) :
    Underway (s.mapRegs fun r => r.setPair p (f (r.pair p)))
      (t.setPairValue p (f (t.pairValue p))) := by
  rw [h.pairValue, ← h.regs.pair hp]
  exact h.setPairValue hp (f (s.cpu.regs.pair p))

/-- Counterparts have the same effect. -/
theorem execute {i : Sm83.Instruction} {j : Z80.Instruction} (hij : i.counterpart? = some j) :
    Underway (s.execute i) (t.execute j) := by
  -- A pair is an operand only if it is not `AF`, whose flags the processors place differently.
  have hpair {p : Pair} {k : Z80.Instruction} (hp : (if p = .af then none else some k) = some j) :
      p ≠ .af ∧ j = k := by
    split at hp
    · cases hp
    · exact ⟨‹_›, (Option.some.inj hp).symm⟩
  cases i with
  | nop =>
    cases hij
    exact h
  -- Loads
  | load dst src =>
    cases hij
    have hmode : t.loadMode dst src = t.cpu.mode := by
      rw [Z80.Board.loadMode, h.mode, ite_self]
    rw [Z80.Board.execute, h.aim_eq, h.aim_eq, hmode]
    rw [Sm83.Board.execute, h.operand]
    exact h.setOperand dst _
  | loadImm dst =>
    cases hij
    rw [Z80.Board.execute, h.aim_eq, Sm83.Board.execute, h.nextByte]
    exact h.skip.setOperand dst _
  | loadPairImm p =>
    obtain ⟨hp, rfl⟩ := hpair hij
    rw [Sm83.Board.execute, Z80.Board.execute, h.nextWord]
    exact h.skipWord.setPairValue hp _
  | storeIndirect p =>
    cases p with
    | bc =>
      cases hij
      rw [Sm83.Board.execute, Z80.Board.execute, ← h.regs.bc, ← h.regs.a]
      exact h.store _ _
    | de =>
      cases hij
      rw [Sm83.Board.execute, Z80.Board.execute, ← h.regs.de, ← h.regs.a]
      exact h.store _ _
    | _ => cases hij
  | loadIndirect p =>
    cases p with
    | bc =>
      cases hij
      have hload : s.load s.cpu.regs.bc = t.load t.cpu.regs.bc := by rw [h.regs.bc, h.load]
      rw [Sm83.Board.execute, Z80.Board.execute]
      exact { h with regs := { h.regs with a := hload } }
    | de =>
      cases hij
      have hload : s.load s.cpu.regs.de = t.load t.cpu.regs.de := by rw [h.regs.de, h.load]
      rw [Sm83.Board.execute, Z80.Board.execute]
      exact { h with regs := { h.regs with a := hload } }
    | _ => cases hij
  | loadSpHl =>
    cases hij
    rw [Sm83.Board.execute, Z80.Board.execute]
    exact { h with regs := { h.regs with sp := h.regs.hl.trans h.indexValue.symm } }
  -- Arithmetic
  | inc8 x =>
    cases hij
    rw [Sm83.Board.execute, Z80.Board.execute]
    exact h.update x (fun _ => rfl) h.regs.incFlags
  | dec8 x =>
    cases hij
    rw [Sm83.Board.execute, Z80.Board.execute]
    exact h.update x (fun _ => rfl) h.regs.decFlags
  | inc16 p =>
    obtain ⟨hp, rfl⟩ := hpair hij
    rw [Sm83.Board.execute, Z80.Board.execute]
    exact h.mapPair hp (· + 1)
  | dec16 p =>
    obtain ⟨hp, rfl⟩ := hpair hij
    rw [Sm83.Board.execute, Z80.Board.execute]
    exact h.mapPair hp (· - 1)
  | addHl p =>
    obtain ⟨hp, rfl⟩ := hpair hij
    rw [Sm83.Board.execute, Z80.Board.execute, h.pairValue, ← h.regs.pair hp, h.mode]
    exact h.mapRegs (h.regs.addHl _)
  | alu op src =>
    cases hij
    rw [Sm83.Board.execute, Z80.Board.execute, h.aim_eq, h.operand]
    exact h.mapRegs (h.regs.alu op _)
  | aluImm op =>
    cases hij
    rw [Sm83.Board.execute, Z80.Board.execute, h.nextByte]
    exact h.skip.mapRegs (h.skip.regs.alu op _)
  | cpl =>
    cases hij
    rw [Sm83.Board.execute, Z80.Board.execute]
    refine h.mapRegs ?_
    exact h.regs.complement
  | scf =>
    cases hij
    rw [Sm83.Board.execute, Z80.Board.execute]
    refine h.mapRegs ?_
    exact h.regs.setCarry
  | shift op x =>
    cases hij
    have hshifted (v : UInt8) : s.cpu.regs.shifted op v = t.cpu.regs.shifted op v :=
      congrArg (op.result · v) (h.regs.flag .c)
    rw [Sm83.Board.execute, Z80.Board.execute]
    exact h.update x hshifted (h.regs.shiftFlags op)
  | bit k x =>
    cases hij
    rw [Sm83.Board.execute, Z80.Board.execute, h.aim_eq, h.operand]
    exact h.mapRegs (h.regs.bitFlags k _)
  | res k x | set k x =>
    cases hij
    rw [Sm83.Board.execute, Z80.Board.execute]
    exact h.update x (fun _ => rfl) fun _ => h.regs
  -- Branches
  | jr =>
    cases hij
    rw [Sm83.Board.execute, Z80.Board.execute]
    exact h.jumpRelative true
  | jp =>
    cases hij
    rw [Sm83.Board.execute, Z80.Board.execute]
    exact h.jumpAbsolute true
  | call =>
    cases hij
    rw [Sm83.Board.execute, Z80.Board.execute]
    exact h.callIf true
  | ret =>
    cases hij
    rw [Sm83.Board.execute, Z80.Board.execute]
    exact h.returnIf true
  | jrIf cc =>
    cases hij
    rw [Sm83.Board.execute, Z80.Board.execute, h.regs.holds]
    exact (h.jumpRelative _).chargeIf ..
  | jpIf cc =>
    cases hij
    rw [Sm83.Board.execute, Z80.Board.execute, h.regs.holds]
    exact (h.jumpAbsolute _).chargeIf ..
  | callIf cc =>
    cases hij
    rw [Sm83.Board.execute, Z80.Board.execute, h.regs.holds]
    exact (h.callIf _).chargeIf ..
  | retIf cc =>
    cases hij
    rw [Sm83.Board.execute, Z80.Board.execute, h.regs.holds]
    exact (h.returnIf _).chargeIf ..
  | jpHl =>
    cases hij
    rw [Sm83.Board.execute, Z80.Board.execute, h.indexValue, ← h.regs.hl]
    exact h.jumpTo _
  | rst vector =>
    cases hij
    rw [Sm83.Board.execute, Z80.Board.execute, h.regs.pc]
    exact (h.push _).jumpTo _
  -- The stack
  | push p =>
    obtain ⟨hp, rfl⟩ := hpair hij
    rw [Sm83.Board.execute, Z80.Board.execute, h.pairValue, ← h.regs.pair hp]
    exact h.push _
  | pop p =>
    obtain ⟨hp, rfl⟩ := hpair hij
    rw [Sm83.Board.execute, Z80.Board.execute, h.stackTop]
    exact h.drop.setPairValue hp _
  | _ => cases hij

/-! ### Decoding -/

/-- At a shared opcode the decoders find counterparts, and fetch the same bytes. -/
theorem decoded (hop : SharesOpcode s.nextByte (s.load (s.cpu.regs.pc + 1))) :
    Underway s.decoded.2 t.decoded.board ∧
      s.decoded.1.instruction.counterpart? = some t.decoded.instruction := by
  have hnext := h.nextByte
  obtain hplain | ⟨hcb, hrow⟩ := hop
  · have hcounterpart := counterpart?_primary _ hplain
    have hone : (Sm83.Decode.primary s.nextByte).instruction ≠ .prefixCb := by
      intro hi
      rw [hi] at hcounterpart
      exact Option.some_ne_none _ hcounterpart.symm
    rw [Sm83.Board.decoded_of_opcode rfl hone,
      t.decoded_plain (hnext ▸ isShared_not_mem _ hplain), Z80.Board.decodeFirst, ← hnext]
    exact ⟨h.skipOpcode, hcounterpart⟩
  · obtain ⟨hinstruction, hboard⟩ := Sm83.Board.decoded_of_cb hcb
    have hsecond : s.load (s.cpu.regs.pc + 1) = s.skip.nextByte :=
      (Sm83.Board.nextByte_skip h.haltBug).symm
    rw [hinstruction, hboard, Z80.Board.decoded_of_cb (hnext ▸ hcb), Z80.Decoding.lookUp,
      ← h.skipOpcode.nextByte]
    rw [hsecond] at hrow
    exact ⟨h.skipOpcode.skipOpcode, counterpart?_cb _ hrow⟩

end Underway

/-! ### Stepping -/

/-- A step of a processor that executes is what is decoded, executed. -/
theorem Sm83.Board.Executes.step_eq {s : Sm83.Board FlatBus} (hs : s.Executes) :
    s.step.board =
      (s.uncharge.begin.decoded.2.execute s.uncharge.begin.decoded.1.instruction).retire := by
  rw [Sm83.Board.step_of_awake hs.halted hs.stopped]
  rfl

/-- **Both processors agree on the instructions they share.** From boards that are alike, a step on
the bytes of a shared opcode leads to boards that are alike. -/
theorem boardsAlike_step {s : Sm83.Board FlatBus} {t : Z80.Board Z80.PortBus} (h : BoardsAlike s t)
    (hs : s.Executes) (ht : t.cpu.halted = false)
    (hop : SharesOpcode s.nextByte (s.load (s.cpu.regs.pc + 1))) :
    BoardsAlike s.step.board t.step.board := by
  have hstart : Underway s.uncharge.begin t.started.begin :=
    { regs := h.regs, memory := h.memory, haltBug := hs.haltBug, mode := rfl }
  obtain ⟨hfetched, hcounterpart⟩ := hstart.decoded hop
  have hend := hfetched.execute hcounterpart
  rw [hs.step_eq, Z80.Board.step_eq_execute ht]
  exact { regs := by rw [Sm83.Board.regs_retire]; exact hend.regs, memory := hend.memory }

/-- `CALL 0` at the first address, and nothing else in memory. -/
def callImage : FlatBus :=
  .ofMemory (Memory.blank.write 0 0xCD) .silent

/-- An SM83 with all registers zero before that instruction. -/
def callSm83 : Sm83.Board FlatBus where
  cpu := .create .zeroed
  bus := callImage

/-- A Z80 likewise. -/
def callZ80 : Z80.Board Z80.PortBus where
  cpu := { Z80.Cpu.create with regs := .zero }
  bus := .ofFlat callImage

/-- Both processors push the return address where the stack wraps around, and leave memory alike. -/
theorem boardsAlike_step_call :
    BoardsAlike callSm83 callZ80 ∧ callSm83.Executes ∧
      BoardsAlike callSm83.step.board callZ80.step.board := by
  have hregs : RegistersAlike callSm83.cpu.regs callZ80.cpu.regs :=
    ⟨rfl, rfl, rfl, rfl, rfl, rfl, rfl, rfl, rfl, by rintro (_ | _) <;> rfl⟩
  have hstart : BoardsAlike callSm83 callZ80 := ⟨hregs, rfl⟩
  have hcall : callSm83.nextByte = 0xCD := Memory.read_write_self ..
  have hexecutes : callSm83.Executes := ⟨rfl, rfl, rfl⟩
  exact ⟨hstart, hexecutes, boardsAlike_step hstart hexecutes rfl (.inl (hcall ▸ rfl))⟩

end EightBit
