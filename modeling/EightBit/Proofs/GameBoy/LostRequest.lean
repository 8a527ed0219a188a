import EightBit.Proofs.GameBoy.PowerOn
import EightBit.Proofs.Sm83.Fetch
import EightBit.Proofs.Sm83.Run
import EightBit.Proofs.Sm83.Selection

/-!
# Requests that a dispatch loses

Taking an interrupt pushes the program counter in two writes, and these may land on registers that
request interrupts themselves. The request register is written last, from its value between the two
pushes. What the upper byte requests is in that value; what the lower byte requests is overwritten.

## Main definitions

* `moments`, `served?`: the states of the bus that the interrupt logic passes through, and the
  source it serves.
* `KeepsRequests`: every request made at one of the moments is kept, but for the one that is served.
* `LosesRequest`: the lower byte requests an interrupt that is neither requested yet nor served.

## Main results

* `keepsRequests_iff`: a request is lost exactly if the lower byte raises it, and nothing but a
  dispatch withdraws one.
* `exists_lost_request`: a program that loses one.
-/

namespace EightBit.GameBoy

open Sm83

/-- The states of the bus from when the processor may take an interrupt until its request is
withdrawn. -/
def moments (s : Board Bus) : List Bus :=
  if s.accepts then [s.bus, s.upperPushed, s.lowerPushed] else [s.bus]

/-- The source of the interrupt that is taken. -/
def served? (s : Board Bus) : Option InterruptSource :=
  if s.accepts then (pendingInterrupts s.upperPushed).highest? else none

/-- Every request that is made at some moment is kept, but for the one that is served. -/
def KeepsRequests (s : Board Bus) : Prop :=
  ∀ bus ∈ moments s, ∀ k, hasBit bus.requests k = true →
    (∀ source, served? s = some source → k ≠ source.index) →
    hasBit s.handleInterrupts.2.bus.requests k = true

/-- While the interrupt of `taken` is entered, the push of the lower byte requests `lost`, which was
not requested before. -/
structure LosesRequest (s : Board Bus) (taken lost : InterruptSource) : Prop where
  served : served? s = some taken
  raised : s.upperPushed.raised? (s.cpu.regs.sp - 2) (loByte s.cpu.regs.pc) = some lost
  ne : lost ≠ taken
  fresh : hasBit s.upperPushed.requests lost.index = false

/-- A call that a driver of the handheld may make between two steps of its own. -/
inductive IsCall : Move Bus → Prop
  | step : IsCall .step
  | interrupt : IsCall .interrupt
  | tick (n : Nat) : IsCall (.drive (tick n))
  | request (i : Interrupts) : IsCall (.drive (requestInterrupt i))
  | write (a : UInt16) (v : UInt8) : IsCall (.drive (write · a v))

variable {s : Board Bus}

/-! ### The requests afterwards -/

theorem pendingInterrupts_eq (bus : Bus) :
    pendingInterrupts bus = .ofBits (bus.peek enableAddress &&& bus.requests) := rfl

theorem bus_handleInterrupts_of_not_accepts (h : s.accepts = false) :
    s.handleInterrupts.2.bus = s.bus := by
  rw [Board.handleInterrupts_of_not_accepts h]
  dsimp only
  split <;> rfl

theorem accepts_of_served {source : InterruptSource} (h : served? s = some source) :
    s.accepts = true := by
  rcases Bool.eq_false_or_eq_true s.accepts with ha | ha
  · exact ha
  · rw [served?, if_neg (Bool.eq_false_iff.1 ha)] at h
    cases h

/-- A dispatch that finds nothing left to serve only pushes. -/
theorem bus_handleInterrupts_of_served_none (ha : s.accepts = true) (h : served? s = none) :
    s.handleInterrupts.2.bus = s.lowerPushed := by
  have hselected : Board.selection? s.upperPushed = none := by
    rw [served?, if_pos ha] at h
    rw [Board.selection?, h]
    rfl
  rw [Board.handleInterrupts_of_accepts ha]
  exact congrArg Board.bus (Board.dispatch_of_selection?_none
    (s := { s with cpu := { s.cpu with stopped := false } }) hselected)

/-- The requests after a dispatch are those between the two pushes, without the one served. -/
theorem requests_handleInterrupts_of_served {source : InterruptSource}
    (h : served? s = some source) :
    s.handleInterrupts.2.bus.requests =
      s.upperPushed.requests &&& ~~~source.mask ||| unusedRequestBits := by
  have ha := accepts_of_served h
  have hselected : Board.selection? s.upperPushed =
      some (source, s.upperPushed.requests &&& ~~~source.mask) := by
    rw [served?, if_pos ha] at h
    rw [Board.selection?, h]
    rfl
  have hbus := congrArg Board.bus (Board.dispatch_of_selection?_some
    (s := { s with cpu := { s.cpu with stopped := false } }) hselected)
  rw [Board.handleInterrupts_of_accepts ha]
  exact (congrArg Bus.requests hbus).trans (Bus.requests_writeByte_request _ _)

/-! ### What is kept and what is lost -/

section

variable (hu : s.cpu.regs.sp - 1 ≠ requestAddress) (hl : s.cpu.regs.sp - 2 ≠ requestAddress)

include hl

/-- The push of the lower byte adds the request that it raises. -/
theorem hasBit_lowerPushed (k : Nat) :
    hasBit s.lowerPushed.requests k =
      (hasBit s.upperPushed.requests k || hasBit (Bus.maskOf
        (s.upperPushed.raised? (s.cpu.regs.sp - 2) (loByte s.cpu.regs.pc))) k) := by
  rw [← hasBit_or, ← Bus.requests_writeByte _ _ hl]
  rfl

include hu

/-- A request made at any moment is there after the pushes. -/
theorem within_requests_lowerPushed {bus : Bus} (hbus : bus ∈ moments s) (ha : s.accepts = true) :
    BitsWithin bus.requests s.lowerPushed.requests := by
  have hupper : BitsWithin s.bus.requests s.upperPushed.requests :=
    Bus.within_requests_writeByte _ _ hu
  have hlower : BitsWithin s.upperPushed.requests s.lowerPushed.requests :=
    Bus.within_requests_writeByte _ _ hl
  rw [moments, if_pos ha] at hbus
  simp only [List.mem_cons, List.not_mem_nil, or_false] at hbus
  rcases hbus with rfl | rfl | rfl
  · exact hupper.trans hlower
  · exact hlower
  · exact .refl _

/-- A request is kept unless the lower byte raises it. -/
theorem keepsRequests_of_not_loses (hn : ∀ taken lost, ¬LosesRequest s taken lost) :
    KeepsRequests s := by
  intro bus hbus k hk hserved
  rcases Bool.eq_false_or_eq_true s.accepts with ha | ha
  · have hlower := within_requests_lowerPushed hu hl hbus ha k hk
    cases h : served? s with
    | none => rwa [bus_handleInterrupts_of_served_none ha h]
    | some taken =>
      have hne : k ≠ taken.index := hserved taken h
      -- It suffices that the request was made before the push of the lower byte.
      suffices hupper : hasBit s.upperPushed.requests k = true by
        rw [requests_handleInterrupts_of_served h, hasBit_or, hasBit_and_not, hupper,
          InterruptSource.hasBit_mask, decide_eq_false hne]
        rfl
      refine Bool.of_not_eq_false fun hfresh => ?_
      rw [hasBit_lowerPushed hl, hfresh, Bool.false_or] at hlower
      obtain ⟨lost, hraised, rfl⟩ := Bus.exists_of_hasBit_maskOf hlower
      exact hn taken lost ⟨h, hraised, fun he => hne (congrArg _ he), hfresh⟩
  · rw [moments, if_neg (Bool.eq_false_iff.1 ha), List.mem_singleton] at hbus
    rwa [bus_handleInterrupts_of_not_accepts ha, ← hbus]

end

/-- A request that the lower byte raises is overwritten. -/
theorem LosesRequest.not_keepsRequests {taken lost : InterruptSource}
    (hl : s.cpu.regs.sp - 2 ≠ requestAddress) (h : LosesRequest s taken lost) :
    ¬KeepsRequests s := by
  intro hkeeps
  have ha := accepts_of_served h.served
  have hmoment : s.lowerPushed ∈ moments s := by simp [moments, ha]
  have hset : hasBit s.lowerPushed.requests lost.index = true := by
    rw [hasBit_lowerPushed hl, h.raised, h.fresh, Bool.false_or]
    exact (InterruptSource.hasBit_mask _ _).trans (decide_eq_true rfl)
  have hkept := hkeeps _ hmoment lost.index hset fun source hs he => by
    rw [h.served, Option.some.injEq] at hs
    exact h.ne (InterruptSource.index_inj (he.trans (congrArg _ hs.symm)))
  have hunused : hasBit unusedRequestBits lost.index = false := by cases lost <;> rfl
  rw [requests_handleInterrupts_of_served h.served, hasBit_or, hasBit_and_not, h.fresh,
    hunused] at hkept
  exact Bool.false_ne_true hkept

/-! ### A program that loses a request -/

/-- A program that pushes the program counter onto the link port: it moves the stack pointer two
addresses above the control register, and enables interrupts while jumping to an address whose lower
byte starts a transfer. -/
def pushProgram : List UInt8 :=
  [0x31, 0x04, 0xFF,  -- the stack pointer is loaded
    0xFB,             -- `EI`
    0xC3, 0x81, 0x00] -- the jump

/-- A cartridge image with the program where the boot program leaves the processor. -/
def pushImage : List UInt8 :=
  List.replicate 0x0100 0 ++ pushProgram

section Program

variable {bus : Bus}
  (hprogram : ∀ k (_ : k < pushProgram.length), bus.peek (0x0100 + UInt16.ofNat k) = pushProgram[k])

include hprogram

theorem load_pushProgram (hbus : s.bus = bus) {a : UInt16} (k : Nat) (hk : k < pushProgram.length)
    (ha : a = 0x0100 + UInt16.ofNat k) : s.load a = pushProgram[k] := by
  subst hbus ha
  exact hprogram k hk

theorem stepsTo_loadSp :
    (Board.powerOn .dmg bus).StepsTo ⟨false, false, false, false, .idle⟩
      { BootState.dmg.registers with pc := 0x0103, sp := 0xFF04 } := by
  have hopcode : (Board.powerOn .dmg bus).nextByte = 0x31 := hprogram 0 (by decide)
  have hlo : (Board.powerOn .dmg bus).load 0x0101 = 0x04 := hprogram 1 (by decide)
  have hhi : (Board.powerOn .dmg bus).load 0x0102 = 0xFF := hprogram 2 (by decide)
  exact (Board.Executes.of_control (s := Board.powerOn .dmg bus) rfl).step_loadSp hopcode hlo hhi

theorem stepsTo_ei :
    (Board.powerOn .dmg bus).step.board.StepsTo ⟨false, false, false, false, .enabling⟩
      { BootState.dmg.registers with pc := 0x0104, sp := 0xFF04 } := by
  have hfirst := stepsTo_loadSp hprogram
  have hopcode : (Board.powerOn .dmg bus).step.board.nextByte = 0xFB :=
    load_pushProgram hprogram hfirst.bus 3 (by decide) (by rw [hfirst.regs]; rfl)
  have hstep := (Board.Executes.of_control hfirst.control).step_ei hopcode
  rwa [hfirst.control, hfirst.regs] at hstep

theorem stepsTo_jp :
    (Board.powerOn .dmg bus).step.board.step.board.StepsTo ⟨true, false, false, false, .idle⟩
      { BootState.dmg.registers with pc := 0x0081, sp := 0xFF04 } := by
  have hsecond := stepsTo_ei hprogram
  have hbus := hsecond.bus.trans (stepsTo_loadSp hprogram).bus
  have hload (k : Nat) (hk : k < pushProgram.length) {a : UInt16}
      (ha : a = 0x0100 + UInt16.ofNat k) := load_pushProgram hprogram hbus k hk ha
  have hopcode : (Board.powerOn .dmg bus).step.board.step.board.nextByte = 0xC3 :=
    hload 4 (by decide) (by rw [hsecond.regs]; rfl)
  have hstep := (Board.Executes.of_control hsecond.control).step_jp hopcode
    (hload 5 (by decide) (by rw [hsecond.regs]; rfl))
    (hload 6 (by decide) (by rw [hsecond.regs]; rfl))
  rwa [hsecond.control, hsecond.regs] at hstep

theorem sp_pushProgram :
    ((Board.powerOn .dmg bus).run [.step, .step, .step]).cpu.regs.sp = 0xFF04 :=
  congrArg Registers.sp (stepsTo_jp hprogram).regs

/-- With the vertical blank requested and enabled, the request of the link port is lost. -/
theorem losesRequest_pushProgram (hrequests : bus.requests = 0xE1)
    (henable : bus.peek enableAddress = 0x01) :
    LosesRequest ((Board.powerOn .dmg bus).run [.step, .step, .step]) .vblank .serial := by
  obtain ⟨hcontrol, hregs, hbus⟩ := stepsTo_jp hprogram
  have hbus : _ = bus :=
    hbus.trans ((stepsTo_ei hprogram).bus.trans (stepsTo_loadSp hprogram).bus)
  change LosesRequest (Board.powerOn .dmg bus).step.board.step.board.step.board .vblank .serial
  generalize (Board.powerOn .dmg bus).step.board.step.board.step.board = t at hcontrol hregs hbus
  -- The upper byte lands on an address without a device.
  have hupper : t.upperPushed = bus.writeByte 0xFF03 0x00 := by
    rw [Board.upperPushed, hbus, hregs]
    rfl
  have hrequestsUpper : t.upperPushed.requests = 0xE1 := by
    rw [hupper, Bus.requests, Bus.peek_writeByte_of_plain _ _ _ (by decide)]
    exact hrequests
  have henableUpper : t.upperPushed.peek enableAddress = 0x01 := by
    rw [hupper, Bus.peek_writeByte_of_plain _ _ _ (by decide)]
    exact henable
  have haccepts : t.accepts = true := by
    have hpending : pendingInterrupts t.bus = ⟨0x01⟩ := by
      rw [hbus, pendingInterrupts_eq, henable, hrequests]
      rfl
    have hime : t.cpu.ime = true := congrArg Control.ime hcontrol
    rw [Board.accepts, Board.hears, hcontrol, hpending, hime]
    rfl
  refine ⟨?_, ?_, by decide, ?_⟩
  · have hpending : pendingInterrupts t.upperPushed = ⟨0x01⟩ := by
      rw [pendingInterrupts_eq, henableUpper, hrequestsUpper]
      rfl
    rw [served?, if_pos haccepts, hpending]
    rfl
  · rw [hregs]
    rfl
  · rw [hrequestsUpper]
    rfl

end Program

/-- The image holds the program. -/
theorem getD_pushImage (v : UInt8) {k : Nat} (hk : k < pushProgram.length) :
    (Bus.romWindow pushImage).getD (0x0100 + k) v = pushProgram[k] := by
  have hle : (List.replicate 0x0100 (0 : UInt8)).length ≤ 0x0100 + k := by
    rw [List.length_replicate]
    exact Nat.le_add_right _ _
  rw [Bus.romWindow, pushImage, List.append_assoc, List.getD_eq_getElem?_getD,
    List.getElem?_append_right hle, List.length_replicate, Nat.add_sub_cancel_left,
    List.getElem?_append_left hk, List.getElem?_eq_getElem hk, Option.getD_some]

theorem length_pushImage : pushImage.length ≤ romWindowSize := by
  rw [pushImage, List.length_append, List.length_replicate]
  decide

theorem toNat_pushAddress {k : Nat} (hk : k < pushProgram.length) :
    (0x0100 + UInt16.ofNat k).toNat = 0x0100 + k := by
  have hlt : k < 7 := hk
  have hsize : UInt16.size = 65536 := rfl
  rw [UInt16.toNat_add, UInt16.toNat_ofNat_of_lt' (by omega)]
  change (256 + k) % 65536 = 256 + k
  omega

/-- The bus with the program in the cartridge window. -/
def pushBus : Bus :=
  (Bus.powerOn .zeroed .silent).mapMemory (·.store 0 (Bus.romWindow pushImage))

theorem loadRom_pushImage : (Bus.powerOn .zeroed .silent).loadRom pushImage = .ok pushBus :=
  if_pos length_pushImage

theorem peek_pushBus {k : Nat} (hk : k < pushProgram.length) :
    pushBus.peek (0x0100 + UInt16.ofNat k) = pushProgram[k] := by
  rw [pushBus, peek_romWindow _ length_pushImage, toNat_pushAddress hk, getD_pushImage _ hk]

theorem requests_pushBus : pushBus.requests = 0xE1 := by
  have houtside : (Bus.romWindow pushImage).length ≤ requestAddress.toNat := by
    rw [length_romWindow length_pushImage]
    decide
  rw [Bus.requests, pushBus, peek_romWindow _ length_pushImage, List.getD_eq_getElem?_getD,
    List.getElem?_eq_none houtside, Option.getD_none]
  exact Bus.requests_powerOn _ _

/-- What is done from outside: the vertical blank is enabled, and three instructions are
executed. -/
def pushMoves : List (Move Bus) :=
  [.drive (write · enableAddress 0x01), .step, .step, .step]

theorem run_pushMoves (bus : Bus) :
    (Board.powerOn .dmg bus).run pushMoves =
      (Board.powerOn .dmg (bus.writeByte enableAddress 0x01)).run [.step, .step, .step] := rfl

/-- Enabling an interrupt does not touch the program. -/
theorem peek_pushBus_enabled {k : Nat} (hk : k < pushProgram.length) :
    (pushBus.writeByte enableAddress 0x01).peek (0x0100 + UInt16.ofNat k) = pushProgram[k] := by
  have hne : enableAddress ≠ 0x0100 + UInt16.ofNat k := fun he => by
    have htoNat := (congrArg UInt16.toNat he).trans (toNat_pushAddress hk)
    have hlt : k < 7 := hk
    change 65535 = 256 + k at htoNat
    omega
  rw [Bus.peek_writeByte_of_plain _ _ _ (by decide), if_neg hne, peek_pushBus hk]

theorem losesRequest_pushBus :
    LosesRequest ((Board.powerOn .dmg pushBus).run pushMoves) .vblank .serial := by
  have hplain : Target.ofAddress enableAddress = .plain := by decide
  rw [run_pushMoves]
  refine losesRequest_pushProgram (fun k hk => peek_pushBus_enabled hk) ?_ ?_
  · rw [Bus.requests, Bus.peek_writeByte_of_plain _ _ _ hplain, if_neg (by decide)]
    exact requests_pushBus
  · rw [Bus.peek_writeByte_of_plain _ _ _ hplain, if_pos rfl]

theorem sp_pushBus : ((Board.powerOn .dmg pushBus).run pushMoves).cpu.regs.sp = 0xFF04 := by
  rw [run_pushMoves]
  exact sp_pushProgram fun k hk => peek_pushBus_enabled hk

/-- **No request is lost but to the push of the lower byte.** With the stack clear of the request
register, every request is kept or served unless the lower byte of the program counter lands on a
register and raises a request there, which is neither made yet nor served. The passing of time, a
request and a write to any other address withdraw no request at all. -/
theorem keepsRequests_iff (s : Board Bus) (hu : s.cpu.regs.sp - 1 ≠ requestAddress)
    (hl : s.cpu.regs.sp - 2 ≠ requestAddress) :
    (KeepsRequests s ↔ ¬∃ taken lost, LosesRequest s taken lost) ∧
      (∀ n, BitsWithin s.bus.requests (tick n s.bus).requests) ∧
      (∀ i, BitsWithin s.bus.requests (requestInterrupt i s.bus).requests) ∧
      ∀ a v, a ≠ requestAddress → BitsWithin s.bus.requests (write s.bus a v).requests := by
  refine ⟨⟨?_, ?_⟩, fun n => ?_, fun i => ?_, fun a v ha => ?_⟩
  · rintro hkeeps ⟨taken, lost, hloses⟩
    exact hloses.not_keepsRequests hl hkeeps
  · intro hn
    exact keepsRequests_of_not_loses hu hl fun taken lost hloses => hn ⟨taken, lost, hloses⟩
  · exact Bus.within_requests_passTime n s.bus
  · exact Bus.within_requests_request s.bus i.bits
  · exact Bus.within_requests_writeByte s.bus v ha

/-- The program loses the request of the link port. -/
theorem serial_lost_to_push :
    ((Board.powerOn .dmg pushBus).run pushMoves).cpu.regs.sp - 1 ≠ requestAddress ∧
      ((Board.powerOn .dmg pushBus).run pushMoves).cpu.regs.sp - 2 ≠ requestAddress ∧
      ¬KeepsRequests ((Board.powerOn .dmg pushBus).run pushMoves) := by
  have hu : ((Board.powerOn .dmg pushBus).run pushMoves).cpu.regs.sp - 1 ≠ requestAddress := by
    rw [sp_pushBus]
    decide
  have hl : ((Board.powerOn .dmg pushBus).run pushMoves).cpu.regs.sp - 2 ≠ requestAddress := by
    rw [sp_pushBus]
    decide
  refine ⟨hu, hl, fun hkeeps => ?_⟩
  exact (keepsRequests_iff _ hu hl).1.1 hkeeps ⟨.vblank, .serial, losesRequest_pushBus⟩

/-- Not every request is kept in the runs of the handheld: from power-on, with a cartridge, and with
nothing done to the bus but what a driver may do. -/
theorem exists_lost_request :
    ¬∀ (image : List UInt8) (bus : Bus) (ms : List (Move Bus)),
      (Bus.powerOn .zeroed .silent).loadRom image = .ok bus → (∀ m ∈ ms, IsCall m) →
      ((Board.powerOn .dmg bus).run ms).cpu.regs.sp - 1 ≠ requestAddress →
      ((Board.powerOn .dmg bus).run ms).cpu.regs.sp - 2 ≠ requestAddress →
      KeepsRequests ((Board.powerOn .dmg bus).run ms) := by
  intro h
  have hl : ((Board.powerOn .dmg pushBus).run pushMoves).cpu.regs.sp - 2 ≠ requestAddress := by
    rw [sp_pushBus]
    decide
  refine losesRequest_pushBus.not_keepsRequests hl
    (h pushImage pushBus pushMoves loadRom_pushImage ?_ ?_ hl)
  · intro m hm
    simp only [pushMoves, List.mem_cons, List.not_mem_nil, or_false] at hm
    rcases hm with rfl | rfl | rfl | rfl
    · exact .write _ _
    · exact .step
    · exact .step
    · exact .step
  · rw [sp_pushBus]
    decide

end EightBit.GameBoy
