import EightBit.Proofs.GameBoy.Calls
import Mathlib.Data.List.Basic
import Mathlib.Data.List.Induction

/-!
# What is sent over the link port

The verdict of a test cartridge is read from the bytes that went over the link port. They are
determined by the calls alone: for every write that starts a transfer, the byte that the data
register was given last. The serial interrupt is requested by these writes and by nothing else but a
request from outside and a write to the request register.

## Main definitions

* `Bus.Call.data?`, `Bus.Call.startsTransfer`: what a call does to the link port.
* `Bus.lastData`, `Bus.sent`: the data register and the bytes sent, as the calls so far tell.
* `Bus.SerialRequested`: the serial interrupt is requested.
* `Bus.LogsTransfers`: the link port against the calls so far, and what the next one does to it.

## Main results

* `Bus.sent_concat`: one more call.
* `Bus.hasBit_requests_apply`: what calls do to the request of the serial interrupt.
* `Bus.logsTransfers_run`: the bytes sent after any number of calls.
-/

namespace EightBit.GameBoy

open Sm83 (requestAddress InterruptSource)

/-- A register is at the address it has to itself, and nowhere else. -/
theorem Target.ofAddress_eq_iff {target : Target} {r a : UInt16} (h : target.register? = some r) :
    ofAddress a = target ↔ a = r := by
  refine ⟨fun ha => eq_of_register? (ha ▸ h), ?_⟩
  rintro rfl
  cases target <;> first
    | obtain rfl := Option.some.inj h
      rfl
    | exact absurd h nofun

/-! ### The link port on its own -/

namespace Serial

variable (s : Serial) (v : UInt8) (target : Target)

theorem sb_written : (s.written v target).sb = if target = .serialData then v else s.sb := by
  cases target with
  | serialControl =>
    change (s.writeControl v).sb = s.sb
    unfold writeControl
    split <;> rfl
  | _ => rfl

theorem output_written :
    (s.written v target).output.toList =
      s.output.toList ++
        if decide (target = .serialControl) && starts v then [s.sb] else [] := by
  have hnothing : s.output.toList = s.output.toList ++ [] := (List.append_nil _).symm
  cases target with
  | serialControl =>
    change (s.writeControl v).output.toList = _ ++ if starts v then [s.sb] else []
    unfold writeControl
    split
    · exact Array.toList_push
    · exact hnothing
  | _ => exact hnothing

end Serial

namespace Bus

/-! ### What calls say about the link port -/

/-- The byte that a call gives to the data register, if it does. -/
def Call.data? : Call → Option UInt8
  | .write a v => if a = 0xFF01 then some v else none
  | _ => none

/-- Whether a call starts a transfer: it writes bits 7 and 0 of the control register as one. -/
def Call.startsTransfer : Call → Bool
  | .write a v => a == 0xFF02 && v &&& 0x81 == 0x81
  | _ => false

/-- The byte that calls have given to the data register last, zero if none has. -/
def lastData (cs : List Call) : UInt8 :=
  (cs.filterMap Call.data?).getLast?.getD 0

/-- The bytes that calls send, in order: for each one that starts a transfer, the byte that the
calls before it have given to the data register last. -/
def sent (cs : List Call) : List UInt8 :=
  cs.zipIdx.filterMap fun (c, i) => if c.startsTransfer then some (lastData (cs.take i)) else none

theorem lastData_concat (cs : List Call) (c : Call) :
    lastData (cs ++ [c]) = c.data?.getD (lastData cs) := by
  unfold lastData
  rw [List.filterMap_append]
  cases h : c.data? with
  | none => rw [List.filterMap_cons_none h, List.filterMap_nil, List.append_nil, Option.getD_none]
  | some v =>
    rw [List.filterMap_cons_some h, List.filterMap_nil, List.getLast?_concat, Option.getD_some,
      Option.getD_some]

/-- One more call sends the data register if it starts a transfer. -/
theorem sent_concat (cs : List Call) (c : Call) :
    sent (cs ++ [c]) = sent cs ++ if c.startsTransfer then [lastData cs] else [] := by
  have hearlier : ∀ p ∈ cs.zipIdx,
      (if p.1.startsTransfer then some (lastData ((cs ++ [c]).take p.2)) else none) =
        if p.1.startsTransfer then some (lastData (cs.take p.2)) else none := by
    intro p hp
    have hlt : p.2 ≤ cs.length := Nat.le_of_lt (List.snd_lt_of_mem_zipIdx hp)
    rw [List.take_append_of_le_length hlt]
  have hlast : (cs ++ [c]).take cs.length = cs := List.take_left
  unfold sent
  rw [List.zipIdx_append, List.filterMap_append, List.filterMap_congr hearlier]
  congr 1
  cases h : c.startsTransfer <;> simp [h, hlast]

/-- The control register on its own sends nothing; a byte that is not replaced is sent again. -/
example : sent [.write 0xFF02 0x80, .write 0xFF01 0x48, .write 0xFF02 0x81, .tick 4,
    .write 0xFF02 0xFF] = [0x48, 0x48] := by decide

/-! ### The link port after a call -/

/-- The write at an address starts a transfer if the control register is there and its start bits
are written as one. -/
theorem startsTransfer_write (a : UInt16) (v : UInt8) :
    (Call.write a v).startsTransfer =
      (decide (Target.ofAddress a = .serialControl) && Serial.starts v) := by
  have hiff : Target.ofAddress a = .serialControl ↔ a = serialControlAddress :=
    Target.ofAddress_eq_iff rfl
  rw [decide_eq_decide.2 hiff]
  rfl

theorem serial_insert (bus : Bus) (image : List UInt8) :
    (bus.insert image).serial = bus.serial := by
  rw [insert_eq]

/-- The data register holds what a call gives it. -/
theorem sb_apply (bus : Bus) (c : Call) :
    (bus.apply c).serial.sb = c.data?.getD bus.serial.sb := by
  cases c with
  | write a v =>
    change (bus.writeByte a v).serial.sb = (if a = serialDataAddress then some v else none).getD _
    have hiff : Target.ofAddress a = .serialData ↔ a = serialDataAddress :=
      Target.ofAddress_eq_iff rfl
    rw [serial_writeByte, Serial.sb_written, if_congr hiff rfl rfl,
      apply_ite (Option.getD · bus.serial.sb)]
    rfl
  | insert image => exact congrArg Serial.sb (bus.serial_insert image)
  | read | tick | request | hook => rfl

/-- A call that starts a transfer sends the data register; no other sends anything. -/
theorem output_apply (bus : Bus) (c : Call) :
    (bus.apply c).serial.output.toList =
      bus.serial.output.toList ++ if c.startsTransfer then [bus.serial.sb] else [] := by
  cases c with
  | write a v =>
    change (bus.writeByte a v).serial.output.toList = _
    rw [serial_writeByte, Serial.output_written, startsTransfer_write]
  | insert image =>
    change (bus.insert image).serial.output.toList = _ ++ []
    rw [serial_insert, List.append_nil]
  | read | tick | request | hook => exact (List.append_nil _).symm

/-! ### The request of the serial interrupt -/

/-- The serial interrupt is requested. -/
def SerialRequested (bus : Bus) : Prop :=
  hasBit (bus.peek requestAddress) InterruptSource.serial.index = true

/-- Of the writes to other registers only one that starts a transfer requests the serial
interrupt. -/
theorem hasBit_raised?_serial (bus : Bus) (a : UInt16) (v : UInt8) :
    hasBit (maskOf (bus.raised? a v)) InterruptSource.serial.index =
      (Call.write a v).startsTransfer := by
  have hstat (rises : Bool) : hasBit (maskOf (if rises then some .lcdStat else none))
      InterruptSource.serial.index = false := by
    cases rises <;> rfl
  rw [raised?, startsTransfer_write]
  cases Target.ofAddress a with
  | serialControl =>
    dsimp only
    cases Serial.starts v <;> rfl
  | lcdControl | lcdStatus | lcdCompare => exact hstat _
  | _ => exact hasBit_zero _

/-- Calls that may change the request register in any way: a request from outside, and a write to
the register itself. -/
def Call.setsRequests : Call → Prop
  | .write a _ => a = requestAddress
  | .request _ => True
  | _ => False

/-- What other calls do to the request of the serial interrupt. -/
theorem hasBit_requests_apply (bus : Bus) {c : Call} (hc : ¬c.setsRequests) :
    hasBit (bus.apply c).requests InterruptSource.serial.index =
      (hasBit bus.requests InterruptSource.serial.index || c.startsTransfer) := by
  cases c with
  | write a v =>
    change hasBit (bus.writeByte a v).requests _ = _
    rw [requests_writeByte bus v hc, hasBit_or, hasBit_raised?_serial]
  | tick n =>
    change hasBit (bus.passTime n).requests _ = _
    rw [requests_passTime, Clockwork.hasBit_requests_run n _ (by decide)]
    exact (Bool.or_false _).symm
  | insert image =>
    have hrequests : (bus.insert image).requests = bus.requests :=
      bus.peek_insert_of_le image (by decide)
    change hasBit (bus.insert image).requests _ = _
    rw [hrequests]
    exact (Bool.or_false _).symm
  | read | hook => exact (Bool.or_false _).symm
  | request => exact absurd trivial hc

/-! ### All calls so far -/

/-- The link port is as the calls so far tell: the data register holds what it was given last, and
the bytes sent are those that the calls sent. -/
structure SerialTold (cs : List Call) (bus : Bus) : Prop where
  data : bus.serial.sb = lastData cs
  output : bus.serial.output.toList = sent cs

theorem serialTold_powerOn (ram : RamBytes) (journal : Journal) :
    (powerOn ram journal).SerialTold [] where
  data := rfl
  output := rfl

theorem SerialTold.apply {cs : List Call} {bus : Bus} (h : bus.SerialTold cs) (c : Call) :
    (bus.apply c).SerialTold (cs ++ [c]) where
  data := by rw [sb_apply, lastData_concat, h.data]
  output := by rw [output_apply, sent_concat, h.output, h.data]

theorem serialTold_run (ram : RamBytes) (journal : Journal) (cs : List Call) :
    ((powerOn ram journal).run cs).SerialTold cs := by
  induction cs using List.reverseRecOn with
  | nil => exact serialTold_powerOn ram journal
  | append_singleton cs c ih =>
    rw [run_append]
    exact ih.apply c

/-- The link port is as the calls so far tell. A write that starts a transfer sends the data
register, requests the interrupt and reads back with the start bit clear. Other calls send nothing,
and apart from requests from outside and writes to the request register they do not change whether
the interrupt is requested. -/
structure LogsTransfers (cs : List Call) (bus : Bus) : Prop extends bus.SerialTold cs where
  sends (v : UInt8) (hv : v &&& 0x81 = 0x81) :
    (bus.apply (.write 0xFF02 v)).serial.output.toList = sent cs ++ [lastData cs] ∧
      (bus.apply (.write 0xFF02 v)).SerialRequested ∧
      (bus.apply (.write 0xFF02 v)).peek 0xFF02 = (v &&& 0x7F) ||| 0x7E
  sendsNothing (c : Call) (hc : c.startsTransfer = false) :
    (bus.apply c).serial.output.toList = sent cs ∧
      (¬c.setsRequests → ((bus.apply c).SerialRequested ↔ bus.SerialRequested))

/-- The control register after a write that starts a transfer. -/
theorem peek_writeByte_of_starts (bus : Bus) {v : UInt8} (hv : Serial.starts v = true) :
    (bus.writeByte serialControlAddress v).peek serialControlAddress = (v &&& 0x7F) ||| 0x7E := by
  have hcontrol : (bus.serial.writeControl v).controlRead = (v &&& 0x7F) ||| 0x7E := by
    rw [Serial.writeControl, if_pos hv]
    rfl
  rw [writeByte, peek_callHooks, ← hcontrol]
  exact Memory.read_write_self _ _ _

theorem SerialTold.logsTransfers {cs : List Call} {bus : Bus} (h : bus.SerialTold cs) :
    bus.LogsTransfers cs where
  data := h.data
  output := h.output
  sends v hv := by
    have hstarts : Serial.starts v = true := beq_iff_eq.2 hv
    have hcall : (Call.write 0xFF02 v).startsTransfer = true := hstarts
    have hother : ¬(Call.write 0xFF02 v).setsRequests := by
      change ¬((0xFF02 : UInt16) = requestAddress)
      decide
    refine ⟨?_, ?_, bus.peek_writeByte_of_starts hstarts⟩
    · rw [output_apply, hcall, if_pos rfl, h.output, h.data]
    · change hasBit (bus.apply (.write 0xFF02 v)).requests _ = true
      rw [hasBit_requests_apply bus hother, hcall, Bool.or_true]
  sendsNothing c hc := by
    refine ⟨?_, fun hother => ?_⟩
    · rw [output_apply, hc, if_neg Bool.false_ne_true, List.append_nil, h.output]
    · change hasBit (bus.apply c).requests _ = true ↔ hasBit bus.requests _ = true
      rw [hasBit_requests_apply bus hother, hc, Bool.or_false]

/-- **The log of the link port.** Whatever is done with a bus from power-on, the bytes that went
over the link port are those that the calls sent, in order, and only a call that starts a transfer
adds to them. -/
theorem logsTransfers_run (ram : RamBytes) (journal : Journal) (cs : List Call) :
    ((powerOn ram journal).run cs).LogsTransfers cs :=
  (serialTold_run ram journal cs).logsTransfers

end Bus

end EightBit.GameBoy
