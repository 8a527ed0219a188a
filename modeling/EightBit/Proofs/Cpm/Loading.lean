import EightBit.Cpm.Machine
import EightBit.Proofs.Memory

/-!
# Loading a program

Around the program lie the few bytes that it expects of the operating system: the warm boot entry,
the system entry with the end of the program area behind it, and a return address on the stack. The
return address is the only one of them inside the program area. It takes the place of the last two
bytes of an image that fills the area, so that an image which is accepted arrives as it is exactly
if what it has there is zero.

## Main definitions

* `systemBytes`: what a program expects of the operating system.
* `Machine.load`: an attempt to load a program.
* `Machine.Ready`, `Machine.Holds`: the processor may start a program, and which one.

## Main results

* `read_programMemory`, `read_programMemory_of_mem`: memory with a program in it.
* `Machine.holds_iff`: which images arrive as they are.
* `Machine.loadCom_spec`: an attempt to load any image.
* `Machine.not_forall_holds`: some images are accepted and damaged.
-/

namespace EightBit.Cpm

/-! ### Memory with a program in it -/

/-- The bytes that a program expects of the operating system, with their addresses. -/
def systemBytes : List (UInt16 × UInt8) :=
  [(0x0000, 0x76), (0x0005, 0xC9), (0x0006, 0x00), (0x0007, 0xFE), (0xFDFE, 0x00), (0xFDFF, 0x00)]

section

variable (m : Memory) (image : List UInt8)

theorem programMemory_eq :
    Machine.programMemory m image =
      systemBytes.foldl (fun m (a, v) => m.write a v) (m.store programStart image) := rfl

/-- The bytes of the operating system are there whatever is loaded. -/
theorem read_programMemory_of_mem {a : UInt16} {v : UInt8} (h : (a, v) ∈ systemBytes) :
    (Machine.programMemory m image).read a = v :=
  Memory.read_foldl_write _ (by decide) h

/-- Elsewhere is the program, and what was there before. -/
theorem read_programMemory {a : UInt16} (h : a ∉ systemBytes.map Prod.fst)
    (hlength : image.length ≤ addressCount) :
    (Machine.programMemory m image).read a =
      image.getD (a - programStart).toNat (m.read a) := by
  rw [programMemory_eq, Memory.read_foldl_write_of_not_mem _ h, Memory.read_store _ _ _ _ hlength]

end

/-- The address of a byte of the program area. -/
def programAddress (i : Nat) : UInt16 := programStart + UInt16.ofNat i

theorem toNat_programAddress {i : Nat} (hi : i < programSpace) :
    (programAddress i).toNat = 0x0100 + i := by
  have hlt : i < 0xFD00 := hi
  have hoffset : (UInt16.ofNat i).toNat = i :=
    UInt16.toNat_ofNat_of_lt' (Nat.lt_trans hlt (by decide))
  rw [programAddress, UInt16.toNat_add, hoffset]
  change (0x0100 + i) % 65536 = _
  omega

/-- Only the last two bytes of the program area belong to the operating system. -/
theorem programAddress_mem_iff {i : Nat} (hi : i < programSpace) :
    programAddress i ∈ systemBytes.map Prod.fst ↔ 0xFCFE ≤ i := by
  have haddress := toNat_programAddress hi
  have hlt : i < 0xFD00 := hi
  simp only [systemBytes, List.map_cons, List.map_nil, List.mem_cons, List.not_mem_nil, or_false,
    ← UInt16.toNat_inj, haddress, UInt16.reduceToNat]
  omega

/-- What they hold is zero. -/
theorem programAddress_mem_systemBytes {i : Nat} (hi : i < programSpace) (hlast : 0xFCFE ≤ i) :
    (programAddress i, 0) ∈ systemBytes := by
  have hlt : i < 0xFD00 := hi
  obtain rfl | rfl : i = 0xFCFE ∨ i = 0xFCFF := by omega
  · decide
  · decide

/-- The program area with a program in it: the image, but for its last two bytes. -/
theorem read_programAddress (m : Memory) {image : List UInt8}
    (hlength : image.length ≤ programSpace) {i : Nat} (hi : i < image.length) :
    (Machine.programMemory m image).read (programAddress i) =
      if 0xFCFE ≤ i then 0 else image[i] := by
  have hspace : i < programSpace := Nat.lt_of_lt_of_le hi hlength
  split
  next hlast =>
    exact read_programMemory_of_mem m image (programAddress_mem_systemBytes hspace hlast)
  next hinner =>
    have hlength : image.length ≤ addressCount := Nat.le_trans hlength (by decide)
    have hdistance : (programAddress i - programStart).toNat = i := by
      rw [programAddress, UInt16.add_comm, UInt16.add_sub_cancel]
      exact UInt16.toNat_ofNat_of_lt' (Nat.lt_of_lt_of_le hi hlength)
    rw [read_programMemory m image (mt (programAddress_mem_iff hspace).1 hinner) hlength,
      hdistance, List.getD_eq_getElem?_getD, List.getElem?_eq_getElem hi, Option.getD_some]

namespace Machine

/-! ### What a program finds -/

/-- The machine after an attempt to load a program, accepted or refused. -/
def load (m : Machine) (image : List UInt8) : Machine :=
  match m.loadCom image with
  | .ok loaded => loaded
  | .error _ => m

/-- The processor may start a program: the entries of the operating system and the end of the
program area are in place, and a return leads to the warm boot entry. -/
structure Ready (m : Machine) : Prop where
  warmBoot : m.board.bus.memory.read 0x0000 = haltOpcode
  entry : m.board.bus.memory.read systemEntry = retOpcode
  areaEnd : readWord m.board.bus 0x0006 = programEnd
  pc : m.board.cpu.regs.pc = programStart
  sp : m.board.cpu.regs.sp = 0xFDFE
  stackTop : m.board.stackTop = 0x0000

/-- The program area begins with `image`. -/
def Holds (m : Machine) (image : List UInt8) : Prop :=
  ∀ i (h : i < image.length), m.board.bus.memory.read (programAddress i) = image[i]

variable {m m' : Machine} {image : List UInt8} {e : ComTooLarge}

theorem loadCom_eq (m : Machine) (image : List UInt8) :
    m.loadCom image =
      if image.length ≤ programSpace then .ok (m.load image) else .error ⟨image.length⟩ := by
  unfold load loadCom
  by_cases h : image.length ≤ programSpace
  · simp only [if_pos h]
  · simp only [if_neg h]

/-- An image is refused if it is longer than the program area. -/
theorem loadCom_eq_error_iff :
    m.loadCom image = .error e ↔ programSpace < image.length ∧ e = ⟨image.length⟩ := by
  rw [loadCom_eq]
  split
  next hle => exact ⟨nofun, fun h => absurd hle (Nat.not_le.2 h.1)⟩
  next hgt => rw [Except.error.injEq, eq_comm, and_iff_right (Nat.not_le.1 hgt)]

/-- An image that is accepted fits, and goes to memory. -/
theorem of_loadCom_eq_ok (h : m.loadCom image = .ok m') :
    image.length ≤ programSpace ∧
      m'.board.bus.memory = programMemory m.board.bus.memory image ∧ m'.board.cpu = startCpu := by
  rw [loadCom] at h
  split at h
  next hle =>
    cases h
    exact ⟨hle, rfl, rfl⟩
  next => cases h

/-- Every image that is accepted may start. -/
theorem ready_of_loadCom (h : m.loadCom image = .ok m') : m'.Ready := by
  obtain ⟨-, hmemory, hcpu⟩ := of_loadCom_eq_ok h
  have hread {a : UInt16} {v : UInt8} (hmem : (a, v) ∈ systemBytes) :
      m'.board.bus.memory.read a = v := by
    rw [hmemory]
    exact read_programMemory_of_mem _ _ hmem
  have hword {a : UInt16} (lo hi : UInt8) (hlo : (a, lo) ∈ systemBytes)
      (hhi : (a + 1, hi) ∈ systemBytes) : readWord m'.board.bus a = word hi lo := by
    rw [← hread hlo, ← hread hhi]
    rfl
  have hsp : m'.board.cpu.regs.sp = 0xFDFE := by
    rw [hcpu]
    rfl
  refine ⟨hread (by decide), hread (by decide), ?_, ?_, hsp, ?_⟩
  · rw [hword 0x00 0xFE (by decide) (by decide)]
    decide
  · rw [hcpu]
    rfl
  · rw [Z80.Board.stackTop, hsp, hword 0x00 0x00 (by decide) (by decide)]
    decide

/-- An image arrives as it is exactly if it has zero where the return address goes. -/
theorem holds_iff (h : m.loadCom image = .ok m') :
    m'.Holds image ↔ ∀ b ∈ image.drop 0xFCFE, b = 0 := by
  obtain ⟨hlength, hmemory, -⟩ := of_loadCom_eq_ok h
  have hread {i : Nat} (hi : i < image.length) :
      m'.board.bus.memory.read (programAddress i) = image[i] ↔ 0xFCFE ≤ i → image[i] = 0 := by
    rw [hmemory, read_programAddress _ hlength hi]
    split <;> grind
  constructor
  · intro hholds b hb
    obtain ⟨k, hk, rfl⟩ := List.getElem_of_mem hb
    rw [List.length_drop] at hk
    rw [List.getElem_drop]
    exact (hread (by omega)).1 (hholds _ _) (Nat.le_add_right _ _)
  · intro hzero i hi
    refine (hread hi).2 fun hle => hzero _ ?_
    rw [List.mem_drop_iff_getElem]
    exact ⟨i - 0xFCFE, by omega, by simp only [Nat.add_sub_cancel' hle]⟩

/-- An attempt to load an image. It is refused exactly if it is longer than the program area, and
then changes nothing. Otherwise the program may start, and is the image itself exactly if that has
zero where the return address goes. -/
theorem loadCom_spec (m : Machine) (image : List UInt8) :
    ((∃ e, m.loadCom image = .error e) ↔ 0xFD00 < image.length) ∧
      (∀ e, m.loadCom image = .error e → e.length = image.length ∧ m.load image = m) ∧
      ∀ m', m.loadCom image = .ok m' →
        m.load image = m' ∧ m'.Ready ∧ (m'.Holds image ↔ ∀ b ∈ image.drop 0xFCFE, b = 0) := by
  refine ⟨?_, ?_, ?_⟩
  · simp only [loadCom_eq_error_iff, exists_and_left, exists_eq, and_true]
    rfl
  · intro e h
    refine ⟨?_, ?_⟩
    · rw [(loadCom_eq_error_iff.1 h).2]
    · rw [load, h]
  · intro m' h
    refine ⟨?_, ready_of_loadCom h, holds_iff h⟩
    rw [load, h]

/-- A program that returns at once is loaded, and arrives as it is. -/
theorem holds_ret :
    ∃ m', (create {} .silent).loadCom [retOpcode] = .ok m' ∧ m'.Ready ∧ m'.Holds [retOpcode] := by
  obtain ⟨-, -, hspec⟩ := loadCom_spec (create {} .silent) [retOpcode]
  have hload : (create {} .silent).loadCom [retOpcode] = .ok _ := if_pos (by decide)
  obtain ⟨-, hready, hholds⟩ := hspec _ hload
  refine ⟨_, hload, hready, hholds.2 ?_⟩
  rw [List.drop_eq_nil_of_le (by decide)]
  exact nofun

/-- An image that fills the program area with one byte. -/
def fullImage : List UInt8 := List.replicate programSpace 0x55

theorem length_fullImage : fullImage.length = programSpace :=
  List.length_replicate

/-- What it has at the place of the return address is not zero. -/
theorem mem_drop_fullImage : 0x55 ∈ fullImage.drop 0xFCFE := by
  rw [fullImage, List.drop_replicate]
  exact List.mem_replicate.2 ⟨by decide, rfl⟩

/-- Not every image that is accepted arrives as it is. -/
theorem not_forall_holds :
    ¬∀ (m : Machine) (image : List UInt8) (m' : Machine), m.loadCom image = .ok m' →
      m'.Ready ∧ m'.Holds image := by
  intro h
  have hload : (create {} .silent).loadCom fullImage = .ok _ :=
    if_pos (Nat.le_of_eq length_fullImage)
  obtain ⟨-, hholds⟩ := h _ _ _ hload
  exact absurd ((holds_iff hload).1 hholds _ mem_drop_fullImage) (by decide)

end Machine

end EightBit.Cpm
