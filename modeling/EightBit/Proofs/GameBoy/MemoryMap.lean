import EightBit.Proofs.GameBoy.Clocks

/-!
# What lies where in memory

Below the registers memory is divided once and for all, whatever a driver or a program does. The
cartridge window holds the image put in last and cannot be written, the echo area shows work memory,
and where nothing is, zeros are read. A write changes the byte at its address, and in work memory
that byte's other copy. What a register's device does to memory stays in the registers, but for the
copying to object memory.

## Main definitions

* `twin?`, `storedAt`: where a write below the registers stores its byte.
* `fitting?`, `lastImage?`, `windowByte`: the image put in last, and what its window shows.
* `Bus.Mapped`, `Bus.MemoryMap`: what lies where, and with it where writes go.

## Main results

* `Bus.peek_writeByte_of_lt`: memory after a write below the registers.
* `Bus.peek_writeByte_of_le`: what a write to a register leaves alone.
* `Bus.peek_powerOn_of_lt`: memory below the registers after power-on.
* `Bus.Mapped.run`, `Machine.mapped_run`: what calls and programs preserve.
* `memoryMap_run`: the division of memory in every state.
-/

namespace EightBit.GameBoy

open Sm83 (requestAddress)

/-! ### Addresses -/

/-- The second address of a byte of work memory, for those that have one. -/
def twin? (a : UInt16) : Option UInt16 :=
  if 0xC000 ≤ a ∧ a < 0xDE00 then some (a + 0x2000)
  else if 0xE000 ≤ a ∧ a < 0xFE00 then some (a - 0x2000)
  else none

/-- Where a write below the registers stores its byte: nowhere in the cartridge and where nothing
is. -/
def storedAt (a : UInt16) : List UInt16 :=
  if 0x8000 ≤ a ∧ a < 0xFEA0 then a :: (twin? a).toList else []

theorem mem_storedAt_iff {a r : UInt16} :
    r ∈ storedAt a ↔ (0x8000 ≤ a ∧ a < 0xFEA0) ∧ (r = a ∨ twin? a = some r) := by
  by_cases h : 0x8000 ≤ a ∧ a < 0xFEA0
  · simp [storedAt, h]
  · simp only [storedAt, h, if_false, List.not_mem_nil, false_and]

namespace Target

/-- On the register page an address is that of a register or plain memory. -/
theorem ofAddress_eq_plain_or {a : UInt16} (ha : 0xFF00 ≤ a) :
    ofAddress a = .plain ∨ (ofAddress a).register? = some a := by
  have hge {b : UInt16} (hb : b ≤ 0xFF00) : ¬a < b := UInt16.not_lt.2 (UInt16.le_trans hb ha)
  rw [ofAddress, if_neg (hge (by decide)), if_neg (hge (by decide)), if_neg (hge (by decide)),
    if_neg (hge (by decide)), if_neg (hge (by decide)), if_neg (hge (by decide)),
    if_neg (hge (by decide))]
  unfold ofRegister
  split
  all_goals first
    | exact .inl rfl
    | exact .inr rfl

/-- A write to a register touches no byte below the registers. -/
theorem touches_of_lt {a r : UInt16} (ha : 0xFF00 ≤ a) (hr : r < 0xFF00)
    (hplain : ofAddress a ≠ .plain) : (ofAddress a).touches r = false := by
  have hne {c : UInt16} (hc : 0xFF00 ≤ c) : (r == c) = false :=
    beq_eq_false_iff_ne.2 fun h => UInt16.not_lt.2 (h ▸ hc) hr
  have hother : (ofAddress r == ofAddress a) = false := by
    refine beq_eq_false_iff_ne.2 fun h => ?_
    have hregister := (ofAddress_eq_plain_or ha).resolve_left hplain
    rw [← h] at hregister
    exact UInt16.not_lt.2 (eq_of_register? hregister ▸ ha) hr
  unfold touches
  rw [hother, Bool.false_or]
  generalize ofAddress a = target
  cases target with
  | serialControl => exact hne (by decide)
  | divider | timerCounter | timerModulo | timerControl =>
    simp [hne (c := dividerAddress) (by decide), hne (c := timerCounterAddress) (by decide),
      hne (c := timerModuloAddress) (by decide), hne (c := timerControlAddress) (by decide)]
  | lcdControl | lcdStatus | lcdCompare =>
    simp [hne (c := requestAddress) (by decide), hne (c := lcdStatusAddress) (by decide),
      hne (c := lcdLineAddress) (by decide)]
  | _ => rfl

/-- Below the registers a target is memory, and stores a byte where the map says. -/
theorem ofAddress_cases {a : UInt16} (ha : a < 0xFF00) :
    (ofAddress a = .mirrored ∧ storedAt a = [a, a + echoOffset]) ∨
      (ofAddress a = .echo ∧ storedAt a = [a, a - echoOffset]) ∨
      (ofAddress a = .plain ∧ storedAt a = [a]) ∨
      ((ofAddress a = .cartridge ∨ ofAddress a = .unusable) ∧ storedAt a = []) := by
  unfold ofAddress
  repeat' split
  all_goals grind [storedAt, twin?, echoOffset]

end Target

namespace Bus

/-! ### Writes -/

theorem peek_poke (bus : Bus) (a r : UInt16) (v : UInt8) :
    (bus.poke a v).peek r = if a = r then v else bus.peek r :=
  Memory.read_write ..

/-- Memory after a write below the registers. -/
theorem peek_writeByte_of_lt (bus : Bus) {a : UInt16} (v : UInt8) (r : UInt16) (ha : a < 0xFF00) :
    (bus.writeByte a v).peek r = if r ∈ storedAt a then v else bus.peek r := by
  rw [writeByte, peek_callHooks]
  obtain ⟨ht, hs⟩ | ⟨ht, hs⟩ | ⟨ht, hs⟩ | ⟨ht | ht, hs⟩ := Target.ofAddress_cases ha
  · rw [ht, hs, writeTarget, peek_poke, peek_poke]
    grind
  · rw [ht, hs, writeTarget, peek_poke, peek_poke]
    grind
  · rw [ht, hs, writeTarget, peek_poke]
    grind
  · rw [ht, hs]
    rfl
  · rw [ht, hs]
    rfl

/-- A write to a register leaves all memory below the registers alone but object memory. -/
theorem peek_writeByte_of_le (bus : Bus) {a r : UInt16} (v : UInt8) (ha : 0xFF00 ≤ a)
    (hr : r < 0xFF00) (hoam : oamSize ≤ (r - oamStart).toNat) :
    (bus.writeByte a v).peek r = bus.peek r := by
  by_cases hplain : Target.ofAddress a = .plain
  · rw [peek_writeByte_of_plain _ _ _ hplain, if_neg]
    rintro rfl
    exact UInt16.not_lt.2 ha hr
  · refine bus.peek_writeByte_of_not_reaches v ?_ (Target.touches_of_lt ha hr hplain)
    have hregister := (Target.ofAddress_eq_plain_or ha).resolve_left hplain
    generalize Target.ofAddress a = target at hregister
    cases target with
    | oamDma => exact Nat.not_lt.2 hoam
    | mirrored | echo => exact absurd hregister nofun
    | _ => exact id

/-- Time leaves all memory below the registers alone. -/
theorem peek_passTime_of_lt (n : Nat) (bus : Bus) {r : UInt16} (hr : r < 0xFF00) :
    (bus.passTime n).peek r = bus.peek r := by
  have hclocked : (clockedRegisters.all fun c => 0xFF00 ≤ c) = true := by decide
  refine bus.peek_passTime_of_not_mem n fun h => UInt16.not_lt.2 ?_ hr
  exact of_decide_eq_true (List.all_eq_true.1 hclocked r h)

end Bus

/-! ### Power-on -/

namespace RamBytes

variable (ram : RamBytes)

/-- Below work memory and above its echo all is zero. -/
theorem read_memory_of_apart {r : UInt16} (hr : r < 0xC000 ∨ 0xFE00 ≤ r ∧ r < 0xFF80) :
    ram.memory.read r = 0 := by
  have hwork : workRamSize ≤ (r - workRamStart).toNat := by
    change (0x2000 : UInt16) ≤ r - 0xC000
    grind
  have hhigh : highRamSize ≤ (r - highRamStart).toNat := by
    change (0x7F : UInt16) ≤ r - 0xFF80
    grind
  have hecho : echoSize ≤ (r - (workRamStart + echoOffset)).toNat := by
    change (0x1E00 : UInt16) ≤ r - 0xE000
    grind
  have hfirst : (ram.toList.take workRamSize).length ≤ workRamSize := List.length_take_le _ _
  have hrest : (ram.toList.drop workRamSize).length ≤ highRamSize := Nat.le_of_eq (by
    rw [List.length_drop, Vector.length_toList, Nat.add_sub_cancel_left])
  unfold memory
  dsimp only
  rw [Memory.read_copy_of_outside _ _ _ hecho,
    Memory.read_store _ _ _ _ (Nat.le_trans hrest (by decide)), List.getD_eq_getElem?_getD,
    List.getElem?_eq_none (Nat.le_trans hrest hhigh), Option.getD_none,
    Memory.read_store _ _ _ _ (Nat.le_trans hfirst (by decide)), List.getD_eq_getElem?_getD,
    List.getElem?_eq_none (Nat.le_trans hfirst hwork), Option.getD_none, Memory.read_blank]

/-- The echo area is filled with what work memory holds. -/
theorem read_memory_echo {i : UInt16} (hi : i < 0x1E00) :
    ram.memory.read (0xE000 + i) = ram.memory.read (0xC000 + i) := by
  have hinside : (0xE000 + i - (workRamStart + echoOffset)).toNat < echoSize := by
    have hdistance : 0xE000 + i - (workRamStart + echoOffset) = i := by
      change 0xE000 + i - 0xE000 = i
      grind
    rw [hdistance]
    exact hi
  have houtside : echoSize ≤ (0xC000 + i - (workRamStart + echoOffset)).toNat := by
    change (0x1E00 : UInt16) ≤ 0xC000 + i - 0xE000
    grind
  have hsource : workRamStart + (0xE000 + i - (workRamStart + echoOffset)) = 0xC000 + i := by
    change 0xC000 + (0xE000 + i - 0xE000) = 0xC000 + i
    grind
  unfold memory
  dsimp only
  rw [Memory.read_copy_of_inside _ (by decide) hinside, hsource,
    Memory.read_copy_of_outside _ _ _ houtside]

end RamBytes

/-- Below the registers memory is filled with the bytes chosen. -/
theorem Bus.peek_powerOn_of_lt (ram : RamBytes) (journal : Journal) {r : UInt16} (hr : r < 0xFF00) :
    (powerOn ram journal).peek r = ram.memory.read r := by
  have hne {c : UInt16} (hc : 0xFF00 ≤ c) : c ≠ r := fun h => UInt16.not_lt.2 (h ▸ hc) hr
  have hdefaults : ((registerDefaults.map Prod.fst).all fun c => 0xFF00 ≤ c) = true := by decide
  rw [powerOn, peek_syncTimer_of_ne _ (hne (by decide)) (hne (by decide)) (hne (by decide))
    (hne (by decide)), peek, Memory.read_write_of_ne _ _ (hne (by decide)),
    Memory.read_write_of_ne _ _ (hne (by decide))]
  refine Memory.read_foldl_write_of_not_mem _ fun h => hne ?_ rfl
  exact of_decide_eq_true (List.all_eq_true.1 hdefaults r h)

/-! ### The cartridge -/

/-- An image, if it fits the cartridge window. -/
def fitting? (image : List UInt8) : Option (List UInt8) :=
  if image.length ≤ romWindowSize then some image else none

/-- What the cartridge window shows at an address: zeros until an image is put in. -/
def windowByte (image? : Option (List UInt8)) (a : UInt16) : UInt8 :=
  match image? with
  | none => 0
  | some image => image.getD a.toNat openBus

/-- The image that a call puts in, if it does. -/
def Bus.Call.image? : Bus.Call → Option (List UInt8)
  | .insert image => fitting? image
  | _ => none

/-- The last image that calls put in. -/
def lastImage? (cs : List Bus.Call) : Option (List UInt8) :=
  (cs.filterMap Bus.Call.image?).getLast?

/-- An image that is put in takes the place of an earlier one. -/
theorem lastImage?_cons (c : Bus.Call) (cs : List Bus.Call) :
    lastImage? (c :: cs) = (lastImage? cs).or c.image? := by
  unfold lastImage?
  cases h : c.image? with
  | none => rw [List.filterMap_cons_none h, Option.or_none]
  | some image =>
    rw [List.filterMap_cons_some h, List.getLast?_cons]
    cases (cs.filterMap Bus.Call.image?).getLast? <;> rfl

/-- The window shows an image followed by what an empty part reads as. -/
theorem getD_romWindow {image : List UInt8} (v : UInt8) {a : UInt16}
    (ha : a < 0x8000) : (Bus.romWindow image).getD a.toNat v = windowByte (some image) a := by
  have hlt : a.toNat < romWindowSize := ha
  rw [Bus.romWindow, windowByte, List.getD_eq_getElem?_getD, List.getD_eq_getElem?_getD,
    List.getElem?_append]
  split
  next h => rw [List.getElem?_eq_getElem h, Option.getD_some, Option.getD_some]
  next h =>
    have hfill : a.toNat - image.length < romWindowSize - image.length := by omega
    rw [List.getElem?_replicate_of_lt hfill, List.getElem?_eq_none (Nat.not_lt.1 h),
      Option.getD_some, Option.getD_none]

/-! ### What calls preserve -/

namespace Bus

/-- Memory below the registers is divided as it should be, with an image in the window. -/
structure Mapped (image? : Option (List UInt8)) (bus : Bus) : Prop where
  cartridge : ∀ a < 0x8000, bus.peek a = windowByte image? a
  echo : ∀ i < 0x1E00, bus.peek (0xE000 + i) = bus.peek (0xC000 + i)
  unusable : ∀ a, 0xFEA0 ≤ a → a < 0xFF00 → bus.peek a = 0

theorem mapped_powerOn (ram : RamBytes) (journal : Journal) :
    (powerOn ram journal).Mapped none where
  cartridge a ha := by
    rw [peek_powerOn_of_lt _ _ (by grind), ram.read_memory_of_apart (.inl (by grind)), windowByte]
  echo i hi := by
    rw [peek_powerOn_of_lt _ _ (by grind), peek_powerOn_of_lt _ _ (by grind),
      ram.read_memory_echo hi]
  unusable a hle hlt := by
    rw [peek_powerOn_of_lt _ _ hlt, ram.read_memory_of_apart (.inr ⟨by grind, by grind⟩)]

namespace Mapped

variable {image? : Option (List UInt8)} {bus : Bus} (h : bus.Mapped image?)
include h

/-- What leaves all memory below the registers alone but object memory keeps memory divided. -/
theorem of_peek {bus' : Bus}
    (hpeek : ∀ r < 0xFF00, oamSize ≤ (r - oamStart).toNat → bus'.peek r = bus.peek r) :
    bus'.Mapped image? := by
  have hbelow (r : UInt16) (hr : r < 0xFE00) : bus'.peek r = bus.peek r := by
    refine hpeek r (by grind) ?_
    change (0xA0 : UInt16) ≤ r - 0xFE00
    grind
  have habove (r : UInt16) (hle : 0xFEA0 ≤ r) (hlt : r < 0xFF00) : bus'.peek r = bus.peek r := by
    refine hpeek r hlt ?_
    change (0xA0 : UInt16) ≤ r - 0xFE00
    grind
  exact {
    cartridge := fun a ha => (hbelow a (by grind)).trans (h.cartridge a ha)
    echo := fun i hi => by rw [hbelow _ (by grind), hbelow _ (by grind), h.echo i hi]
    unusable := fun a hle hlt => (habove a hle hlt).trans (h.unusable a hle hlt) }

theorem note (n : Notice) : (bus.note n).Mapped image? :=
  h.of_peek fun r _ _ => bus.peek_note n r

theorem writeByte (a : UInt16) (v : UInt8) : (bus.writeByte a v).Mapped image? := by
  by_cases ha : a < 0xFF00
  · exact {
      cartridge := fun r hr => by
        have hnot : r ∉ storedAt a := by grind [mem_storedAt_iff, twin?]
        rw [bus.peek_writeByte_of_lt v r ha, if_neg hnot, h.cartridge r hr]
      echo := fun i hi => by
        -- Of a byte and its second copy a write stores to both or to neither.
        have hboth : 0xE000 + i ∈ storedAt a ↔ 0xC000 + i ∈ storedAt a := by
          grind [mem_storedAt_iff, twin?]
        rw [bus.peek_writeByte_of_lt v _ ha, bus.peek_writeByte_of_lt v _ ha, h.echo i hi]
        exact if_congr hboth rfl rfl
      unusable := fun r hle hlt => by
        have hnot : r ∉ storedAt a := by grind [mem_storedAt_iff, twin?]
        rw [bus.peek_writeByte_of_lt v r ha, if_neg hnot, h.unusable r hle hlt] }
  · exact h.of_peek fun r hr hoam => bus.peek_writeByte_of_le v (UInt16.not_lt.1 ha) hr hoam

theorem passTime (n : Nat) : (bus.passTime n).Mapped image? :=
  h.of_peek fun _ hr _ => bus.peek_passTime_of_lt n hr

theorem request (bits : UInt8) : (bus.request bits).Mapped image? := by
  refine h.of_peek fun r hr _ => peek_poke_of_ne _ _ ?_
  rintro rfl
  exact absurd hr (by decide)

theorem insert (image : List UInt8) : (bus.insert image).Mapped ((fitting? image).or image?) := by
  rcases Nat.lt_or_ge romWindowSize image.length with hlength | hlength
  · rw [insert_of_lt_length _ hlength, fitting?, if_neg (Nat.not_le.2 hlength), Option.none_or]
    exact h
  · rw [fitting?, if_pos hlength, Option.some_or]
    exact {
      cartridge := fun a ha => by
        rw [insert_of_length_le _ hlength, peek_romWindow _ hlength, getD_romWindow _ ha]
      echo := fun i hi => by
        rw [peek_insert_of_le _ _ (by grind), peek_insert_of_le _ _ (by grind), h.echo i hi]
      unusable := fun a hle hlt => by
        rw [peek_insert_of_le _ _ (by grind), h.unusable a hle hlt] }

/-- Every call keeps memory divided, with the image that it puts in. -/
theorem apply (c : Call) : (bus.apply c).Mapped (c.image?.or image?) := by
  cases c with
  | write a v => exact h.writeByte a v
  | tick n => exact h.passTime n
  | request i => exact h.request i.bits
  | insert image => exact h.insert image
  | read | hook => exact h.of_peek fun _ _ _ => rfl

end Mapped

theorem Mapped.run {image? : Option (List UInt8)} {bus : Bus} (h : bus.Mapped image?)
    (cs : List Call) : (bus.run cs).Mapped ((lastImage? cs).or image?) := by
  induction cs generalizing bus image? with
  | nil => exact h
  | cons c cs ih =>
    rw [lastImage?_cons, Option.or_assoc]
    exact ih (h.apply c)

/-- Memory is divided as it should be, an image that does not fit is refused and changes nothing,
and a write below the registers stores its byte where it should and changes no other. -/
structure MemoryMap (image? : Option (List UInt8)) (bus : Bus) : Prop
    extends bus.Mapped image? where
  refuses : ∀ image, 0x8000 < image.length →
    bus.loadRom image = .error image.length ∧ bus.insert image = bus
  stores : ∀ a v r, a < 0xFF00 →
    (bus.writeByte a v).peek r = if r ∈ storedAt a then v else bus.peek r

theorem Mapped.memoryMap {image? : Option (List UInt8)} {bus : Bus} (h : bus.Mapped image?) :
    bus.MemoryMap image? :=
  { h with
    refuses := fun _ hlength => ⟨if_neg (Nat.not_le.2 hlength), bus.insert_of_lt_length hlength⟩
    stores := fun _ v r ha => bus.peek_writeByte_of_lt v r ha }

end Bus

/-! ### Programs -/

/-- Whatever program runs, memory stays divided. -/
theorem Machine.mapped_run {m : Machine} {image? : Option (List UInt8)}
    (h : m.board.bus.Mapped image?) (cs : List Machine.Call) :
    (m.run cs).2.board.bus.Mapped image? := by
  refine run_induction (P := fun m => m.board.bus.Mapped image?) h (fun _ _ hm => hm) cs
    fun m _ hm => ?_
  refine step_induction (P := fun _ bus => bus.Mapped image?) (t := 0) hm ?_
    (fun n _ _ hbus => hbus.note n) fun n _ _ hbus => hbus.passTime n
  intro x _ _ bus hbus
  cases x with
  | write a v => exact hbus.writeByte a v
  | note n => exact hbus.note n

theorem Machine.mapped_insert {m : Machine} {image? : Option (List UInt8)}
    (h : m.board.bus.Mapped image?) (image : List UInt8) :
    (m.insert image).board.bus.Mapped ((fitting? image).or image?) :=
  (h.insert image).of_peek fun r _ _ => m.peek_insert image r

theorem Machine.mapped_powerOn [NoiseSource] (config : Config) (journal : Journal)
    (image : List UInt8) : (powerOn config journal image).board.bus.Mapped (fitting? image) := by
  have hcreate : (create config journal).board.bus.Mapped none :=
    Bus.mapped_powerOn config.ram.bytes journal
  have hinsert := mapped_insert hcreate image
  rwa [Option.or_none] at hinsert

/-- Whatever calls are made of a bus after power-on, and whatever program a machine runs, memory
below the registers is divided as it should be and writes go where they should. -/
theorem memoryMap_run [NoiseSource] :
    (∀ ram journal cs, ((Bus.powerOn ram journal).run cs).MemoryMap (lastImage? cs)) ∧
      ∀ config journal image cs,
        ((Machine.powerOn config journal image).run cs).2.board.bus.MemoryMap (fitting? image) := by
  refine ⟨fun ram journal cs => ?_, fun config journal image cs => ?_⟩
  · have hmapped := (Bus.mapped_powerOn ram journal).run cs
    rw [Option.or_none] at hmapped
    exact hmapped.memoryMap
  · exact (Machine.mapped_run (Machine.mapped_powerOn config journal image) cs).memoryMap

end EightBit.GameBoy
