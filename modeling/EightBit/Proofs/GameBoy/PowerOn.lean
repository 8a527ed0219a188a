import EightBit.GameBoy.PowerOn
import EightBit.Proofs.GameBoy.Writes

/-!
# The bus after power-on, and its cartridge

After power-on the registers hold what the boot program leaves behind, whatever noise work memory
holds. A cartridge image fills its window and reaches nothing else; one that does not fit changes
nothing.

## Main definitions

* `Bus.insert`: puts a cartridge in, if it fits.

## Main results

* `Bus.peek_powerOn`, `Bus.lcd_powerOn`: the registers and the display after power-on.
* `peek_romWindow`, `Bus.peek_insert_of_le`: memory with a cartridge in its window.
-/

namespace EightBit.GameBoy

open Sm83 (requestAddress)

/-! ### Power-on -/

namespace Bus

variable (ram : RamBytes) (journal : Journal)

/-- The registers after power-on. -/
theorem peek_powerOn {r : UInt16} {v : UInt8} (h : (r, v) ∈ registerDefaults) :
    (powerOn ram journal).peek r = v := by
  have hne {d : UInt16} (hd : d ∉ registerDefaults.map Prod.fst) : d ≠ r := by
    rintro rfl
    exact hd (List.mem_map_of_mem h)
  rw [powerOn, peek_syncTimer_of_ne _ (hne (by decide)) (hne (by decide)) (hne (by decide))
    (hne (by decide)), peek, Memory.read_write_of_ne _ _ (hne (by decide)),
    Memory.read_write_of_ne _ _ (hne (by decide))]
  exact Memory.read_foldl_write _ (by decide) h

/-- The boot program leaves the vertical blank requested. -/
theorem requests_powerOn : (powerOn ram journal).requests = 0xE1 :=
  peek_powerOn ram journal (by decide)

/-- The display after power-on is at the start of a frame; its status has not been brought up to
date yet. -/
theorem lcd_powerOn :
    (powerOn ram journal).lcd =
      { control := 0x91, status := 0x85, line := 0, compare := 0, dots := 0, statLine := false,
        frames := 0 } := by
  rw [lcd, peek_powerOn ram journal (v := 0x91) (by decide),
    peek_powerOn ram journal (v := 0x85) (by decide), peek_powerOn ram journal (v := 0) (by decide),
    peek_powerOn ram journal (v := 0) (by decide)]
  rfl

theorem showsTimer_powerOn : (powerOn ram journal).ShowsTimer :=
  showsTimer_syncTimer _

end Bus

/-! ### The cartridge -/

theorem length_romWindow {image : List UInt8} (h : image.length ≤ romWindowSize) :
    (Bus.romWindow image).length = romWindowSize := by
  rw [Bus.romWindow, List.length_append, List.length_replicate, Nat.add_sub_cancel' h]

/-- What memory holds with a cartridge in its window. -/
theorem peek_romWindow (bus : Bus) {image : List UInt8} (h : image.length ≤ romWindowSize)
    (a : UInt16) :
    (bus.mapMemory (·.store 0 (Bus.romWindow image))).peek a =
      (Bus.romWindow image).getD a.toNat (bus.peek a) := by
  have hlength : (Bus.romWindow image).length ≤ addressCount := by
    rw [length_romWindow h]
    decide
  rw [Bus.mapMemory, Bus.peek, Memory.read_store _ _ _ _ hlength, UInt16.sub_zero]
  rfl

/-- The byte of an image that has one at an address. -/
theorem peek_romWindow_of_lt (bus : Bus) {image : List UInt8} (h : image.length ≤ romWindowSize)
    {a : UInt16} (ha : a.toNat < image.length) :
    (bus.mapMemory (·.store 0 (Bus.romWindow image))).peek a = image[a.toNat] := by
  rw [peek_romWindow _ h, Bus.romWindow, List.getD_eq_getElem?_getD, List.getElem?_append_left ha,
    List.getElem?_eq_getElem ha, Option.getD_some]

namespace Bus

/-- Puts a cartridge in. An image that does not fit is refused, and nothing changes. -/
def insert (bus : Bus) (image : List UInt8) : Bus :=
  match bus.loadRom image with
  | .ok bus => bus
  | .error _ => bus

theorem insert_of_length_le (bus : Bus) {image : List UInt8} (h : image.length ≤ romWindowSize) :
    bus.insert image = bus.mapMemory (·.store 0 (romWindow image)) := by
  rw [insert, loadRom, if_pos h]

theorem insert_of_lt_length (bus : Bus) {image : List UInt8} (h : romWindowSize < image.length) :
    bus.insert image = bus := by
  rw [insert, loadRom, if_neg (Nat.not_le.2 h)]

/-- A cartridge changes memory alone. -/
theorem insert_eq (bus : Bus) (image : List UInt8) :
    bus.insert image = { bus with memory := (bus.insert image).memory } := by
  rcases Nat.lt_or_ge romWindowSize image.length with h | h
  · rw [insert_of_lt_length _ h]
  · rw [insert_of_length_le _ h]
    rfl

/-- A cartridge shows in its window and nowhere else. -/
theorem peek_insert_of_le (bus : Bus) (image : List UInt8) {r : UInt16} (hr : 0x8000 ≤ r) :
    (bus.insert image).peek r = bus.peek r := by
  rcases Nat.lt_or_ge romWindowSize image.length with h | h
  · rw [insert_of_lt_length _ h]
  · have houtside : (romWindow image).length ≤ r.toNat := by
      rw [length_romWindow h]
      exact hr
    rw [insert_of_length_le _ h, peek_romWindow _ h, List.getD_eq_getElem?_getD,
      List.getElem?_eq_none houtside, Option.getD_none]

@[simp] theorem lcd_insert (bus : Bus) (image : List UInt8) : (bus.insert image).lcd = bus.lcd := by
  have hpeek {r : UInt16} (hr : 0x8000 ≤ r) := bus.peek_insert_of_le image hr
  refine lcd_eq (hpeek (by decide)) (hpeek (by decide)) (hpeek (by decide)) (hpeek (by decide))
    ?_ ?_ ?_
  all_goals rw [insert_eq]

end Bus

end EightBit.GameBoy
