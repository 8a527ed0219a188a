import EightBit.Sm83.Cpu
import EightBit.Trace.Log
import EightBit.Z80.Cpu

/-!
# Records and the buffers that they stand in

The bytes fetched for an instruction stand in a buffer that serves for every instruction, and what
stands in it behind them is left from the instructions before. A record shows neither its buffer nor
these bytes: what it keeps, and what is appended to it, does not depend on them. Both processors
hold such a record and do not look at it.

## Main definitions

* `InstructionBytes.inBuffer`: the same record in another buffer.
* `InstructionBytes.SameBehindFirst`: buffers that differ at most in their first byte.
* `Recording`: processors that hold a record.
* `Recording.Agree`, `Recording.Alike`: processors that agree in everything but the record, and in
  everything but what stands in its buffer behind it.
* `TraceEntry.shown`, `TraceLog.Alike`: what an entry shows, and logs that show the same.

## Main results

* `InstructionBytes.inBuffer_push`: appending to a record.
* `InstructionBytes.inBuffer_eq`: records of the same bytes differ in nothing but their buffers.
* `InstructionBytes.SameBehindFirst.clear_push_eq`: records that begin with the same byte.
* `TraceLog.Alike.record`, `TraceLog.Alike.lines`: logs go on showing the same, and have the same
  listing.
-/

namespace EightBit

namespace InstructionBytes

/-- Of the bytes fetched for an instruction the first ones are kept. -/
theorem toList_foldl_push (bs : InstructionBytes) (code : List UInt8) :
    (code.foldl push bs).toList =
      (bs.toList ++ code).take maxInstructionBytes := by
  induction code generalizing bs with
  | nil =>
    have hall : bs.toList.length ≤ maxInstructionBytes := by
      rw [bs.length_toList]
      exact bs.length_le
    rw [List.append_nil, List.take_of_length_le hall, List.foldl_nil]
  | cons b code ih =>
    have hlength : maxInstructionBytes - min maxInstructionBytes (bs.toList ++ [b]).length =
        maxInstructionBytes - (bs.toList ++ [b]).length := by
      omega
    rw [List.foldl_cons, ih, toList_push, List.take_append, List.take_take,
      Nat.min_self, List.length_take, hlength, ← List.take_append, List.append_assoc]
    rfl

/-- The same record in another buffer. -/
def inBuffer (bs : InstructionBytes) (buffer : Vector UInt8 maxInstructionBytes) :
    InstructionBytes :=
  { bs with buffer := .ofFn fun i => if i < bs.length then bs.buffer[i] else buffer[i] }

variable (bs : InstructionBytes) (buffer : Vector UInt8 maxInstructionBytes)

@[simp] theorem toList_inBuffer : (bs.inBuffer buffer).toList = bs.toList := by
  refine List.ext_getElem (by simp [inBuffer]) fun i hi _ => ?_
  have hlt : i < bs.length := by simpa [inBuffer] using hi
  simp [toList, inBuffer, hlt]

theorem inBuffer_push (b : UInt8) :
    (bs.push b).inBuffer buffer = (bs.inBuffer buffer).push b := by
  unfold push
  by_cases h : bs.length < maxInstructionBytes
  · have hsame : (bs.inBuffer buffer).length < maxInstructionBytes := h
    rw [dif_pos h, dif_pos hsame]
    refine congrArg (fun v => (⟨v, bs.length + 1, h⟩ : InstructionBytes))
      (Vector.ext fun i hi => ?_)
    simp only [inBuffer, Fin.getElem_fin, Vector.getElem_ofFn, Vector.getElem_set]
    -- The byte goes to the first place behind the record.
    obtain hlt | rfl | hgt := Nat.lt_trichotomy i bs.length
    · rw [if_pos (Nat.lt_succ_of_lt hlt), if_neg (Nat.ne_of_gt hlt), if_neg (Nat.ne_of_gt hlt),
        if_pos hlt]
    · rw [if_pos (Nat.lt_succ_self _), if_pos rfl, if_pos rfl]
    · rw [if_neg (Nat.not_lt_of_le hgt), if_neg (Nat.ne_of_lt hgt),
        if_neg (Nat.lt_asymm hgt)]
  · have hsame : ¬(bs.inBuffer buffer).length < maxInstructionBytes := h
    rw [dif_neg h, dif_neg hsame]

variable {bs}

/-- Records of the same bytes differ in nothing but their buffers. -/
theorem inBuffer_eq {bs' : InstructionBytes} (h : bs'.toList = bs.toList) :
    bs.inBuffer bs'.buffer = bs' := by
  obtain ⟨buffer, n, hn⟩ := bs
  obtain ⟨buffer', n', hn'⟩ := bs'
  have hlength : n' = n := by simpa using congrArg List.length h
  subst hlength
  refine congrArg (fun v => (⟨v, n', hn'⟩ : InstructionBytes)) (Vector.ext fun i hi => ?_)
  rw [Vector.getElem_ofFn]
  split
  next hlt =>
    have hbyte := congrArg (·[i]?) h
    simpa [toList, List.getElem?_take, hlt, hi] using hbyte.symm
  next => rfl

/-- The buffers differ at most in their first byte. -/
def SameBehindFirst (bs bs' : InstructionBytes) : Prop :=
  ∀ i (_ : i < maxInstructionBytes), i ≠ 0 → bs.buffer[i] = bs'.buffer[i]

theorem SameBehindFirst.symm {bs bs' : InstructionBytes} (h : bs.SameBehindFirst bs') :
    bs'.SameBehindFirst bs :=
  fun i hi hne => (h i hi hne).symm

theorem SameBehindFirst.trans {bs bs' bs'' : InstructionBytes} (h : bs.SameBehindFirst bs')
    (h' : bs'.SameBehindFirst bs'') : bs.SameBehindFirst bs'' :=
  fun i hi hne => (h i hi hne).trans (h' i hi hne)

theorem clear_push (bs : InstructionBytes) (b : UInt8) :
    bs.clear.push b =
      { buffer := bs.buffer.set 0 b (by decide), length := 1, length_le := by decide } := rfl

/-- The first byte of a record takes the first place of the buffer. -/
theorem sameBehindFirst_clear_push (bs : InstructionBytes) (b : UInt8) :
    (bs.clear.push b).SameBehindFirst bs := by
  intro i hi hne
  rw [clear_push]
  exact Vector.getElem_set_ne (by decide) hi hne.symm

/-- Records that begin with the same byte are the same if their buffers are behind it. -/
theorem SameBehindFirst.clear_push_eq {bs bs' : InstructionBytes} (h : bs.SameBehindFirst bs')
    (b : UInt8) : bs.clear.push b = bs'.clear.push b := by
  rw [clear_push, clear_push]
  refine congrArg (fun v => (⟨v, 1, by decide⟩ : InstructionBytes)) (Vector.ext fun i hi => ?_)
  by_cases hfirst : i = 0
  · subst hfirst
    rw [Vector.getElem_set_self, Vector.getElem_set_self]
  · rw [Vector.getElem_set_ne _ hi (Ne.symm hfirst), Vector.getElem_set_ne _ hi (Ne.symm hfirst),
      h i hi hfirst]

end InstructionBytes

/-! ### Processors -/

/-- A kind of processor that holds a record of the bytes fetched. -/
class Recording (C : Type) where
  record : C → InstructionBytes
  /-- The processor with another record. -/
  setRecord : C → InstructionBytes → C
  record_setRecord (c : C) (bs : InstructionBytes) : record (setRecord c bs) = bs
  setRecord_record (c : C) : setRecord c (record c) = c

namespace Recording

instance : Recording Sm83.Cpu where
  record := Sm83.Cpu.fetched
  setRecord c bs := { c with fetched := bs }
  record_setRecord _ _ := rfl
  setRecord_record _ := rfl

instance : Recording Z80.Cpu where
  record := Z80.Cpu.fetched
  setRecord c bs := { c with fetched := bs }
  record_setRecord _ _ := rfl
  setRecord_record _ := rfl

variable {C : Type} [Recording C]

/-- Processors that agree in everything but the record. -/
def Agree (c d : C) : Prop :=
  ∃ bs, d = setRecord c bs

/-- A change of the processor that does not depend on the record. -/
theorem Agree.map {c d : C} (h : Agree c d) (f : C → C)
    (hf : ∀ c bs, Agree (f c) (f (setRecord c bs))) : Agree (f c) (f d) := by
  obtain ⟨bs, rfl⟩ := h
  exact hf c bs

/-- Processors that record the same bytes and agree in everything else. What stands in their buffers
behind the record may differ. -/
structure Alike (c d : C) : Prop where
  bytes : (record d).toList = (record c).toList
  rest : d = setRecord c (record d)

namespace Alike

variable {c d : C}

theorem setRecord (c : C) {bs : InstructionBytes} (h : bs.toList = (record c).toList) :
    Alike c (setRecord c bs) where
  bytes := by rw [record_setRecord, h]
  rest := by rw [record_setRecord]

variable (h : Alike c d)
include h

theorem eq_inBuffer : d = Recording.setRecord c ((record c).inBuffer (record d).buffer) := by
  rw [InstructionBytes.inBuffer_eq h.bytes]
  exact h.rest

/-- A change that leaves the record alone makes no difference. -/
theorem map (f : C → C)
    (hf : ∀ c bs, f (Recording.setRecord c bs) = Recording.setRecord (f c) bs) :
    Alike (f c) (f d) := by
  have hrecord : record (f c) = record c := by
    rw [← setRecord_record c, hf, record_setRecord, setRecord_record]
  rw [h.rest, hf]
  refine .setRecord _ ?_
  rw [hrecord, h.bytes]

end Alike

end Recording

/-! ### Entries and logs -/

/-- What an entry shows, which is all but the buffer that its bytes stand in. -/
def TraceEntry.shown (e : TraceEntry) : UInt16 × List UInt8 × String :=
  (e.address, e.bytes.toList, e.mnemonic)

theorem TraceEntry.line_eq {e f : TraceEntry} (h : f.shown = e.shown) : f.line = e.line := by
  simp only [shown, Prod.mk.injEq] at h
  obtain ⟨haddress, hbytes, hmnemonic⟩ := h
  rw [line, line, InstructionBytes.text, InstructionBytes.text, haddress, hbytes, hmnemonic]

namespace TraceLog

/-- Logs whose entries show the same. -/
structure Alike (log log' : TraceLog) : Prop where
  limit : log'.limit = log.limit
  entries : log'.toList.map TraceEntry.shown = log.toList.map TraceEntry.shown
  dropped : log'.dropped = log.dropped

theorem Alike.refl (log : TraceLog) : log.Alike log := ⟨rfl, rfl, rfl⟩

namespace Alike

variable {log log' : TraceLog} (h : log.Alike log')

include h

theorem length_toList : log'.toList.length = log.toList.length := by
  simpa only [List.length_map] using congrArg List.length h.entries

theorem record {e f : TraceEntry} (hshown : f.shown = e.shown) :
    (log.record e).Alike (log'.record f) where
  limit := by rw [limit_record, limit_record, h.limit]
  entries := by
    rw [toList_record, toList_record, h.limit, h.length_toList]
    split
    · exact h.entries
    · rw [List.map_append, List.map_append, h.entries, List.map_singleton, List.map_singleton,
        hshown]
  dropped := by rw [dropped_record, dropped_record, h.limit, h.length_toList, h.dropped]

/-- The listings of such logs are the same. -/
theorem lines : log'.toList.map TraceEntry.line = log.toList.map TraceEntry.line := by
  refine List.ext_getElem (by simp [h.length_toList]) fun i hi hi' => ?_
  have hshown := List.getElem_of_eq h.entries (i := i) (by simpa using hi)
  simp only [List.getElem_map] at hshown ⊢
  exact TraceEntry.line_eq hshown

end Alike

end TraceLog

end EightBit
