import EightBit.Proofs.GameBoy.MemoryMap

/-!
# Copying to object memory

A write to the transfer register copies the first bytes of a page to object memory, one after the
other. The page may be object memory itself, and then nothing moves, or the page of the registers.
What is copied is what each address holds. Up to the end of the echo area that is also what work
memory holds at the address that is echoed, but the two pages behind it are no echo.

## Main definitions

* `pageStart`, `echoedPage`: the page of a byte, and the page of work memory that it would echo.
* `Bus.Transfers`: a write to the transfer register copies bytes from an address on, and does
  nothing else.
* `Bus.CopiesObjects`: which page it copies, and when another has the same bytes.

## Main results

* `Bus.transfers_pageStart`: the page that is copied, whatever the state.
* `Bus.Mapped.peek_echoedPage`: the pages that echo work memory.
* `copiesObjects_run`: what is copied in every state, and when it is what work memory holds.
* `not_forall_transfersEchoed`: a state in which it is not.
-/

namespace EightBit

/-- Copying a run of bytes onto itself changes nothing. -/
theorem Memory.copy_self (m : Memory) (a : UInt16) (n : Nat) : m.copy a a n = m := by
  induction n generalizing a with
  | zero => rfl
  | succ n ih => rw [copy, write_read_self, ih]

end EightBit

namespace EightBit.GameBoy

/-! ### Pages -/

/-- The first address of a page. -/
def pageStart (v : UInt8) : UInt16 :=
  v.toUInt16 <<< 8

/-- The page of work memory in place of one behind it, as if all of them were its echo. -/
def echoedPage (v : UInt8) : UInt8 :=
  if v < 0xE0 then v else v - 0x20

theorem toNat_pageStart (v : UInt8) : (pageStart v).toNat = 256 * v.toNat := by
  have hword : pageStart v = word v 0 := (UInt16.or_zero).symm
  rw [hword, toNat_word, Nat.mul_comm]
  rfl

theorem pageStart_sub (v : UInt8) : pageStart (v - 0x20) = pageStart v - 0x2000 := by
  have hv := v.toNat_lt
  refine UInt16.toNat_inj.1 ?_
  rw [UInt16.toNat_sub, toNat_pageStart, toNat_pageStart, UInt8.toNat_sub]
  change 256 * ((256 - 32 + v.toNat) % 256) = (65536 - 8192 + 256 * v.toNat) % 65536
  omega

namespace Bus

/-- A write to the transfer register copies the bytes from an address on to object memory, shows in
the register, and changes no other byte of memory and no device. -/
structure Transfers (bus : Bus) (v : UInt8) (source : UInt16) : Prop where
  objects : ∀ i : UInt16, i < 0xA0 →
    (bus.writeByte oamDmaAddress v).peek (oamStart + i) = bus.peek (source + i)
  register : (bus.writeByte oamDmaAddress v).peek oamDmaAddress = v
  elsewhere : ∀ r, r ≠ oamDmaAddress → oamSize ≤ (r - oamStart).toNat →
    (bus.writeByte oamDmaAddress v).peek r = bus.peek r
  timer : (bus.writeByte oamDmaAddress v).timer = bus.timer
  lcd : (bus.writeByte oamDmaAddress v).lcd = bus.lcd
  serial : (bus.writeByte oamDmaAddress v).serial = bus.serial

variable (bus : Bus) (v : UInt8)

theorem peek_writeByte_oamDma (r : UInt16) :
    (bus.writeByte oamDmaAddress v).peek r =
      if oamDmaAddress = r then v
      else (bus.memory.copy (pageStart v) oamStart oamSize).read r := by
  rw [writeByte, peek_callHooks]
  exact Memory.read_write ..

/-- Object memory receives what the page held before. -/
theorem read_copy_objects {i : UInt16} (hi : i < 0xA0) :
    (bus.memory.copy (pageStart v) oamStart oamSize).read (oamStart + i) =
      bus.peek (pageStart v + i) := by
  have hoffset : oamStart + i - oamStart = i := by grind
  by_cases hv : v = 0xFE
  · -- The page is object memory itself.
    subst hv
    exact congrArg (·.read (oamStart + i)) (bus.memory.copy_self oamStart oamSize)
  · have hapart : oamSize ≤ (oamStart - pageStart v).toNat := by
      have hlt := v.toNat_lt
      have hne : v.toNat ≠ 0xFE := fun h => hv (UInt8.toNat_inj.1 h)
      rw [UInt16.toNat_sub, toNat_pageStart]
      change 0xA0 ≤ (65536 - 256 * v.toNat + 0xFE00) % 65536
      omega
    rw [Memory.read_copy_of_inside _ hapart, hoffset]
    · rfl
    · rw [hoffset]
      exact hi

/-- The page of the byte that is written is copied. -/
theorem transfers_pageStart : bus.Transfers v (pageStart v) where
  objects i hi := by
    have hne : oamDmaAddress ≠ oamStart + i := by
      change (0xFF46 : UInt16) ≠ 0xFE00 + i
      grind
    rw [peek_writeByte_oamDma, if_neg hne, read_copy_objects _ _ hi]
  register := by rw [peek_writeByte_oamDma, if_pos rfl]
  elsewhere r hr hoam := by
    rw [peek_writeByte_oamDma, if_neg (Ne.symm hr), Memory.read_copy_of_outside _ _ _ hoam]
    rfl
  timer := bus.timer_writeByte oamDmaAddress v
  lcd := bus.lcd_writeByte oamDmaAddress v
  serial := bus.serial_writeByte oamDmaAddress v

/-- Another run of bytes is what is copied exactly if it holds the same. -/
theorem transfers_iff (source : UInt16) :
    bus.Transfers v source ↔
      ∀ i : UInt16, i < 0xA0 → bus.peek (source + i) = bus.peek (pageStart v + i) := by
  have hpage := bus.transfers_pageStart v
  constructor
  · intro h i hi
    rw [← h.objects i hi, hpage.objects i hi]
  · intro h
    exact { hpage with objects := fun i hi => (hpage.objects i hi).trans (h i hi).symm }

variable {bus v} in
/-- Up to the end of the echo area a page holds what the page holds that it echoes. -/
theorem Mapped.peek_echoedPage {image? : Option (List UInt8)} (h : bus.Mapped image?)
    (hv : v < 0xFE) {i : UInt16} (hi : i < 0xA0) :
    bus.peek (pageStart (echoedPage v) + i) = bus.peek (pageStart v + i) := by
  by_cases hbelow : v < 0xE0
  · rw [echoedPage, if_pos hbelow]
  · have hlow : 0xE0 ≤ v.toNat := Nat.not_lt.1 hbelow
    have hhigh : v.toNat < 0xFE := hv
    have hi' : i.toNat < 0xA0 := hi
    have hinside : pageStart v + i - 0xE000 < 0x1E00 := by
      rw [UInt16.lt_iff_toNat_lt, UInt16.toNat_sub, UInt16.toNat_add, toNat_pageStart]
      change (65536 - 0xE000 + (256 * v.toNat + i.toNat) % 65536) % 65536 < 0x1E00
      omega
    have hecho := h.echo _ hinside
    have hpage : 0xE000 + (pageStart v + i - 0xE000) = pageStart v + i := by grind
    have hwork : 0xC000 + (pageStart v + i - 0xE000) = pageStart v - 0x2000 + i := by grind
    rw [hpage, hwork] at hecho
    rw [echoedPage, if_neg hbelow, pageStart_sub, hecho]

/-- A write to the transfer register copies a page, and it is the page of work memory that the page
would echo unless that is beyond the echo area and holds something else. -/
structure CopiesObjects (bus : Bus) (v : UInt8) : Prop where
  transfers : bus.Transfers v (pageStart v)
  echoed_iff : bus.Transfers v (pageStart (echoedPage v)) ↔
    v < 0xFE ∨
      ∀ i : UInt16, i < 0xA0 →
        bus.peek (pageStart (echoedPage v) + i) = bus.peek (pageStart v + i)

variable {bus} in
theorem Mapped.copiesObjects {image? : Option (List UInt8)} (h : bus.Mapped image?) (v : UInt8) :
    bus.CopiesObjects v where
  transfers := bus.transfers_pageStart v
  echoed_iff := by
    rw [transfers_iff]
    exact ⟨.inr, fun hor => hor.elim (fun hv i hi => h.peek_echoedPage hv hi) id⟩

end Bus

/-- Whatever calls are made of a bus after power-on, and whatever program a machine runs, a write to
the transfer register copies the page of its byte. -/
theorem copiesObjects_run [NoiseSource] (v : UInt8) :
    (∀ ram journal cs, ((Bus.powerOn ram journal).run cs).CopiesObjects v) ∧
      ∀ config journal image cs,
        ((Machine.powerOn config journal image).run cs).2.board.bus.CopiesObjects v := by
  refine ⟨fun ram journal cs => ?_, fun config journal image cs => ?_⟩
  · exact ((Bus.mapped_powerOn ram journal).run cs).copiesObjects v
  · exact (Machine.mapped_run (Machine.mapped_powerOn config journal image) cs).copiesObjects v

/-- Object memory is not an echo: copied onto itself, it keeps what it holds. -/
theorem not_forall_transfersEchoed :
    ¬∀ ram journal cs v,
      ((Bus.powerOn ram journal).run cs).Transfers v (pageStart (echoedPage v)) := by
  intro h
  have hecho := h .zeroed .silent [.write 0xDE00 0x5A] 0xFE
  have hfirst := (Bus.transfers_iff _ _ _).1 hecho 0 (by decide)
  have hwork : ((Bus.powerOn .zeroed .silent).writeByte 0xDE00 0x5A).peek 0xDE00 = 0x5A := by
    rw [Bus.peek_writeByte_of_lt _ _ _ (by decide), if_pos (by decide)]
  have hobjects : ((Bus.powerOn .zeroed .silent).writeByte 0xDE00 0x5A).peek 0xFE00 = 0 := by
    rw [Bus.peek_writeByte_of_lt _ _ _ (by decide), if_neg (by decide),
      Bus.peek_powerOn_of_lt _ _ (by decide), RamBytes.read_memory_of_apart _ (.inr (by decide))]
  exact absurd (hwork.symm.trans (hfirst.trans hobjects)) (by decide)

end EightBit.GameBoy
