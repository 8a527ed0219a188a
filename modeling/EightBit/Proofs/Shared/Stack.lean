import EightBit.Proofs.Memory
import EightBit.Proofs.Z80.Blocks
import EightBit.Sm83.Cpu

/-!
# The stack of both processors

Both processors keep their stack in memory and let it grow downwards. A word goes onto it the upper
byte first, which therefore stands above the lower one, and is read back from the stack pointer on.
In plain memory words come back in reverse order for as long as the stack does not grow into itself,
that is, up to the `32768` words that fill all of memory, wherever the stack pointer starts: runs of
addresses wrap.

## Main definitions

* `PlainMemory`: surroundings in which every address is memory.
* `writeDown`, `stackBytes`, `pushWords`: runs of bytes and words that are written downwards.
* `HoldsWords`: words that stand in memory from an address on.
* `StackMachine`, `pushAll`, `popAll`: states with a stack, and many words put onto it or taken off.
* `StacksWords`: what becomes of words that are put onto the stack and taken off again.

## Main results

* `read_pushWords`: what words on the stack leave in memory.
* `HoldsWords.pushWord`, `HoldsWords.pushWords`: what a stack holds after one push, and after many.
* `popAll_of_holdsWords`: words that are held are taken off.
* `stacksWords`: the stacks of both processors.
-/

namespace EightBit

/-- Surroundings in which every address is memory. -/
class PlainMemory (β : Type) [Addressable β] : Prop where
  read_write (bus : β) (a c : UInt16) (v : UInt8) :
    read (write bus a v) c = if a = c then v else read bus c

instance : PlainMemory FlatBus where
  read_write bus a c v := bus.memory.read_write a c v

namespace Z80

theorem Bus.IsFlat.plainMemory {β : Type} [Bus β] {memory : β → Memory} (h : Bus.IsFlat memory) :
    PlainMemory β where
  read_write bus a c v := by rw [h.read, h.read, h.write, Memory.read_write]

instance : PlainMemory PortBus := PortBus.isFlat.plainMemory

instance : PlainMemory LineBus := LineBus.isFlat.plainMemory

end Z80

/-! ### Words below an address -/

/-- The bytes of words in the order in which a stack takes them. -/
def stackBytes : List UInt16 → List UInt8
  | [] => []
  | w :: ws => hiByte w :: loByte w :: stackBytes ws

theorem length_stackBytes (ws : List UInt16) : (stackBytes ws).length = 2 * ws.length := by
  induction ws with
  | nil => rfl
  | cons w ws ih =>
    rw [stackBytes, List.length_cons, List.length_cons, ih, List.length_cons]
    omega

/-- A word of a stack is its upper byte and, after it, the lower one. -/
theorem getElem?_stackBytes (ws : List UInt16) (i : Nat) :
    (stackBytes ws)[2 * i]? = ws[i]?.map hiByte ∧
      (stackBytes ws)[2 * i + 1]? = ws[i]?.map loByte := by
  induction ws generalizing i with
  | nil => exact ⟨rfl, rfl⟩
  | cons w ws ih =>
    cases i with
    | zero => exact ⟨rfl, rfl⟩
    | succ i => exact ih i

section

variable {β : Type} [Addressable β]

/-- Writes bytes downwards from an address on. -/
def writeDown (bus : β) (a : UInt16) : List UInt8 → β
  | [] => bus
  | b :: bs => writeDown (write bus a b) (a - 1) bs

/-- Puts words onto a stack, the first of them at the bottom. -/
def pushWords (bus : β) (sp : UInt16) : List UInt16 → β
  | [] => bus
  | w :: ws => pushWords (pushWord bus sp w) (sp - 2) ws

theorem pushWords_eq_writeDown (bus : β) (sp : UInt16) (ws : List UInt16) :
    pushWords bus sp ws = writeDown bus (sp - 1) (stackBytes ws) := by
  induction ws generalizing bus sp with
  | nil => rfl
  | cons w ws ih =>
    have hnext : sp - 1 - 1 = sp - 2 := by grind
    have hthen : sp - 2 - 1 = sp - 1 - 1 - 1 := by grind
    rw [pushWords, ih, stackBytes, writeDown, writeDown, hthen, hnext, pushWord]

/-- The words of a list stand in memory one after the other, the first at the address `a`. -/
def HoldsWords (bus : β) (a : UInt16) : List UInt16 → Prop
  | [] => True
  | w :: ws => readWord bus a = w ∧ HoldsWords bus (a + 2) ws

/-- Memory that agrees over the length of the words holds the same words. -/
theorem HoldsWords.congr {bus bus' : β} {a : UInt16} {ws : List UInt16} (h : HoldsWords bus a ws)
    (hsame : ∀ c, (c - a).toNat < 2 * ws.length → read bus' c = read bus c) :
    HoldsWords bus' a ws := by
  induction ws generalizing a with
  | nil => trivial
  | cons w ws ih =>
    have hlen : (w :: ws).length = ws.length + 1 := rfl
    have hlower : read bus' a = read bus a := hsame a (by simp)
    have hupper : read bus' (a + 1) = read bus (a + 1) := by
      refine hsame (a + 1) ?_
      rw [show a + 1 - a = 1 by grind, hlen]
      change 1 < _
      omega
    refine ⟨?_, ih h.2 fun c hc => hsame c ?_⟩
    · rw [readWord, hlower, hupper]
      exact h.1
    · have ha := a.toNat_lt
      rw [hlen]
      simp only [UInt16.toNat_sub, UInt16.toNat_add, UInt16.reduceToNat] at hc ⊢
      omega

/-! ### Pushing in plain memory -/

variable [PlainMemory β]

open PlainMemory

/-- Bytes that are written downwards are found where they were written, and nothing else is
changed. -/
theorem read_writeDown (bus : β) (a c : UInt16) {bs : List UInt8} (h : bs.length ≤ addressCount) :
    read (writeDown bus a bs) c = bs.getD (a - c).toNat (read bus c) := by
  induction bs generalizing bus a with
  | nil => rfl
  | cons b bs ih =>
    have hlt : bs.length ≤ addressCount - 1 := Nat.le_sub_one_of_lt h
    rw [writeDown, ih _ _ (Nat.le_trans hlt (Nat.sub_le _ _)), read_write]
    have hnext : a - 1 - c = a - (c + 1) := by grind
    by_cases hac : a = c
    · -- The byte is as far from the next one as an address can be.
      subst hac
      rw [if_pos rfl, hnext, Memory.toNat_sub_add_one_self, List.getD_eq_getElem?_getD,
        List.getElem?_eq_none hlt, UInt16.sub_self]
      rfl
    · rw [if_neg hac, hnext, Memory.toNat_sub_of_ne (Ne.symm hac), List.getD_cons_succ]

/-- What words on the stack leave in memory. -/
theorem read_pushWords (bus : β) (sp c : UInt16) {ws : List UInt16} (h : ws.length ≤ 32768) :
    read (pushWords bus sp ws) c = (stackBytes ws).getD (sp - 1 - c).toNat (read bus c) := by
  rw [pushWords_eq_writeDown, read_writeDown]
  rw [length_stackBytes]
  exact Nat.mul_le_mul_left 2 h

/-- A word that is put onto the stack comes before the words that were there, as long as it does not
reach around to them. -/
theorem HoldsWords.pushWord {bus : β} {sp : UInt16} {ws : List UInt16} (h : HoldsWords bus sp ws)
    (w : UInt16) (hroom : ws.length < 32768) :
    HoldsWords (pushWord bus sp w) (sp - 2) (w :: ws) := by
  have hne : sp - 2 ≠ sp - 1 := by grind
  have hupper : sp - 2 + 1 = sp - 1 := by grind
  have hbelow : sp - 2 + 2 = sp := by grind
  refine ⟨?_, ?_⟩
  · rw [readWord, EightBit.pushWord, hupper, read_write, read_write, read_write, if_neg hne,
      if_pos rfl, if_pos rfl, word_hiByte_loByte]
  · rw [hbelow]
    refine h.congr fun c hc => ?_
    -- The addresses below the stack pointer are the farthest above it.
    have hapart (k : UInt16) (hk : 65534 ≤ (sp - k - sp).toNat) : sp - k ≠ c := by
      rintro rfl
      omega
    have h1 : sp - 1 ≠ c := hapart 1 (by rw [show sp - 1 - sp = 0xFFFF by grind]; decide)
    have h2 : sp - 2 ≠ c := hapart 2 (by rw [show sp - 2 - sp = 0xFFFE by grind]; decide)
    rw [EightBit.pushWord, read_write, read_write, if_neg h1, if_neg h2]

/-- The distance covered by the first of several pushes, and by the others. -/
theorem sub_two_mul_succ (sp : UInt16) (n : Nat) :
    sp - .ofNat (2 * (n + 1)) = sp - 2 - .ofNat (2 * n) := by
  have hsum : UInt16.ofNat (2 * (n + 1)) = .ofNat (2 * n) + 2 := by
    rw [Nat.mul_succ, UInt16.ofNat_add]
    rfl
  rw [hsum]
  grind

/-- Words that are put onto the stack come in reverse order before the words that were there. -/
theorem HoldsWords.pushWords {bus : β} {sp : UInt16} {vs : List UInt16} (h : HoldsWords bus sp vs)
    {ws : List UInt16} (hroom : vs.length + ws.length ≤ 32768) :
    HoldsWords (pushWords bus sp ws) (sp - .ofNat (2 * ws.length)) (ws.reverse ++ vs) := by
  induction ws generalizing bus sp vs with
  | nil =>
    rw [show sp - UInt16.ofNat (2 * ([] : List UInt16).length) = sp from UInt16.sub_zero sp]
    exact h
  | cons w ws ih =>
    rw [List.length_cons] at hroom ⊢
    rw [EightBit.pushWords, List.reverse_cons, List.append_assoc, List.singleton_append,
      sub_two_mul_succ]
    refine ih (h.pushWord w (by omega)) ?_
    rw [List.length_cons]
    omega

end

/-! ### Machines with a stack -/

/-- A state with a stack pointer into the memory around it. -/
class StackMachine (σ : Type) (β : outParam Type) [Addressable β] where
  /-- The stack pointer. -/
  sp : σ → UInt16
  /-- What the machine is connected to. -/
  bus : σ → β
  /-- The state with another stack pointer and other surroundings, but all else the same. -/
  withStack : σ → UInt16 → β → σ
  /-- Puts a word onto the stack. -/
  push : σ → UInt16 → σ
  /-- The word on top of the stack. -/
  stackTop : σ → UInt16
  /-- Takes a word off the stack. -/
  drop : σ → σ
  push_eq : ∀ s w, push s w = withStack s (sp s - 2) (pushWord (bus s) (sp s) w)
  stackTop_eq : ∀ s, stackTop s = readWord (bus s) (sp s)
  drop_eq : ∀ s, drop s = withStack s (sp s + 2) (bus s)
  sp_withStack : ∀ s a b, sp (withStack s a b) = a
  bus_withStack : ∀ s a b, bus (withStack s a b) = b
  withStack_withStack : ∀ s a a' b b', withStack (withStack s a b) a' b' = withStack s a' b'
  withStack_self : ∀ s, withStack s (sp s) (bus s) = s

instance Sm83.instStackMachine {β : Type} [Sm83.Bus β] : StackMachine (Sm83.Board β) β where
  sp s := s.cpu.regs.sp
  bus s := s.bus
  withStack s sp bus := { s.mapRegs ({ · with sp := sp }) with bus := bus }
  push := Sm83.Board.push
  stackTop := Sm83.Board.stackTop
  drop := Sm83.Board.drop
  push_eq _ _ := rfl
  stackTop_eq _ := rfl
  drop_eq _ := rfl
  sp_withStack _ _ _ := rfl
  bus_withStack _ _ _ := rfl
  withStack_withStack _ _ _ _ _ := rfl
  withStack_self _ := rfl

instance Z80.instStackMachine {β : Type} [Z80.Bus β] : StackMachine (Z80.Board β) β where
  sp s := s.cpu.regs.sp
  bus s := s.bus
  withStack s sp bus := { s.mapRegs ({ · with sp := sp }) with bus := bus }
  push := Z80.Board.push
  stackTop := Z80.Board.stackTop
  drop := Z80.Board.drop
  push_eq _ _ := rfl
  stackTop_eq _ := rfl
  drop_eq _ := rfl
  sp_withStack _ _ _ := rfl
  bus_withStack _ _ _ := rfl
  withStack_withStack _ _ _ _ _ := rfl
  withStack_self _ := rfl

section

open StackMachine

variable {σ β : Type} [Addressable β] [StackMachine σ β]

/-- Puts words onto the stack, one after the other. -/
def pushAll (s : σ) (ws : List UInt16) : σ :=
  ws.foldl push s

/-- Takes `n` words off the stack: the words in the order in which they come, and the state after
them. -/
def popAll : Nat → σ → List UInt16 × σ
  | 0, s => ([], s)
  | n + 1, s =>
    let rest := popAll n (drop s)
    (stackTop s :: rest.1, rest.2)

theorem pushAll_eq (s : σ) (ws : List UInt16) :
    pushAll s ws =
      withStack s (sp s - .ofNat (2 * ws.length)) (pushWords (bus s) (sp s) ws) := by
  induction ws generalizing s with
  | nil =>
    rw [show sp s - UInt16.ofNat (2 * ([] : List UInt16).length) = sp s from UInt16.sub_zero _]
    exact (withStack_self s).symm
  | cons w ws ih =>
    rw [pushAll, List.foldl_cons, ← pushAll, ih, push_eq, sp_withStack, bus_withStack,
      withStack_withStack, List.length_cons, sub_two_mul_succ, pushWords]

/-- Words that are held from the stack pointer on are taken off, and nothing but the stack pointer
is changed. -/
theorem popAll_of_holdsWords {s : σ} {ws : List UInt16} (h : HoldsWords (bus s) (sp s) ws) :
    popAll ws.length s = (ws, withStack s (sp s + .ofNat (2 * ws.length)) (bus s)) := by
  induction ws generalizing s with
  | nil =>
    rw [show sp s + UInt16.ofNat (2 * ([] : List UInt16).length) = sp s from UInt16.add_zero _,
      withStack_self]
    rfl
  | cons w ws ih =>
    have hnext : HoldsWords (bus (drop s)) (sp (drop s)) ws := by
      rw [drop_eq, bus_withStack, sp_withStack]
      exact h.2
    have htop : stackTop s = w := (stackTop_eq s).trans h.1
    have hsum : UInt16.ofNat (2 * (ws.length + 1)) = 2 + .ofNat (2 * ws.length) := by
      rw [Nat.mul_succ, Nat.add_comm, UInt16.ofNat_add]
      rfl
    rw [List.length_cons, popAll, ih hnext, htop, drop_eq, sp_withStack, bus_withStack,
      withStack_withStack, hsum, UInt16.add_assoc]

/-- What becomes of words that are put onto the stack and taken off again. -/
structure StacksWords (s : σ) (ws : List UInt16) : Prop where
  /-- The words come back in reverse order. -/
  popped : (popAll ws.length (pushAll s ws)).1 = ws.reverse
  /-- The stack pointer is back where it was, and nothing but memory has changed, which taking off
  leaves alone. -/
  restored : (popAll ws.length (pushAll s ws)).2 = withStack s (sp s) (bus (pushAll s ws))
  /-- Each word has moved the stack pointer down by two. -/
  pointer : sp (pushAll s ws) = sp s - .ofNat (2 * ws.length)
  /-- The upper byte of a word is at the higher address. -/
  upper : ∀ i (h : i < ws.length),
    read (bus (pushAll s ws)) (sp s - .ofNat (2 * i + 1)) = hiByte ws[i]
  /-- The lower byte is below it. -/
  lower : ∀ i (h : i < ws.length),
    read (bus (pushAll s ws)) (sp s - .ofNat (2 * i + 2)) = loByte ws[i]
  /-- Only that many addresses below the initial stack pointer have changed. -/
  elsewhere : ∀ c, (∀ k < 2 * ws.length, c ≠ sp s - .ofNat (k + 1)) →
    read (bus (pushAll s ws)) c = read (bus s) c

variable [PlainMemory β]

/-- What many pushes leave in memory. -/
theorem read_pushAll (s : σ) (c : UInt16) {ws : List UInt16} (h : ws.length ≤ 32768) :
    read (bus (pushAll s ws)) c =
      (stackBytes ws).getD (sp s - 1 - c).toNat (read (bus s) c) := by
  rw [pushAll_eq, bus_withStack, read_pushWords _ _ _ h]

/-- The distance of an address from the first below the stack pointer. -/
theorem toNat_sub_sub_ofNat_succ (a : UInt16) {k : Nat} (h : k < addressCount) :
    (a - 1 - (a - .ofNat (k + 1))).toNat = k := by
  have heq : a - 1 - (a - .ofNat (k + 1)) = .ofNat k := by
    rw [UInt16.ofNat_add, UInt16.ofNat_one]
    grind
  rw [heq, UInt16.toNat_ofNat_of_lt' h]

/-- Each byte of the words is found where the pushes put it. -/
theorem read_pushAll_of_getElem? (s : σ) {ws : List UInt16} (h : ws.length ≤ 32768) {k : Nat}
    {b : UInt8} (hb : (stackBytes ws)[k]? = some b) :
    read (bus (pushAll s ws)) (sp s - .ofNat (k + 1)) = b := by
  obtain ⟨hk, -⟩ := List.getElem?_eq_some_iff.1 hb
  rw [length_stackBytes] at hk
  have hlt : k < addressCount := Nat.lt_of_lt_of_le hk (Nat.mul_le_mul_left 2 h)
  rw [read_pushAll s _ h, toNat_sub_sub_ofNat_succ (sp s) hlt, List.getD_eq_getElem?_getD, hb,
    Option.getD_some]

/-- Bytes that no push wrote are as they were. -/
theorem read_pushAll_of_forall_ne (s : σ) {c : UInt16} {ws : List UInt16} (h : ws.length ≤ 32768)
    (hc : ∀ k < 2 * ws.length, c ≠ sp s - .ofNat (k + 1)) :
    read (bus (pushAll s ws)) c = read (bus s) c := by
  have hfar : 2 * ws.length ≤ (sp s - 1 - c).toNat := by
    refine Nat.le_of_not_lt fun hlt => hc _ hlt ?_
    rw [UInt16.ofNat_add, UInt16.ofNat_toNat, UInt16.ofNat_one]
    grind
  rw [read_pushAll s c h, List.getD_eq_getElem?_getD, List.getElem?_eq_none, Option.getD_none]
  rwa [length_stackBytes]

/-- Words that were put onto the stack are taken off. -/
theorem popAll_pushAll (s : σ) {ws : List UInt16} (h : ws.length ≤ 32768) :
    popAll ws.length (pushAll s ws) =
      (ws.reverse, withStack s (sp s) (bus (pushAll s ws))) := by
  have hholds : HoldsWords (bus (pushAll s ws)) (sp (pushAll s ws)) ws.reverse := by
    rw [pushAll_eq, bus_withStack, sp_withStack, ← List.append_nil ws.reverse]
    have hnone : HoldsWords (bus s) (sp s) [] := trivial
    exact hnone.pushWords (by rwa [List.length_nil, Nat.zero_add])
  have hpops := popAll_of_holdsWords hholds
  rw [List.length_reverse] at hpops
  rw [hpops, pushAll_eq, sp_withStack, bus_withStack, withStack_withStack, UInt16.sub_add_cancel]

/-- On plain memory words come back as long as the stack does not grow into itself. -/
theorem stacksWords_of_plainMemory (s : σ) {ws : List UInt16} (h : ws.length ≤ 32768) :
    StacksWords s ws where
  popped := congrArg Prod.fst (popAll_pushAll s h)
  restored := congrArg Prod.snd (popAll_pushAll s h)
  pointer := by rw [pushAll_eq, sp_withStack]
  upper i hi := by
    refine read_pushAll_of_getElem? s h ?_
    rw [(getElem?_stackBytes ws i).1, List.getElem?_eq_getElem hi, Option.map_some]
  lower i hi := by
    refine read_pushAll_of_getElem? s h ?_
    rw [(getElem?_stackBytes ws i).2, List.getElem?_eq_getElem hi, Option.map_some]
  elsewhere _ hc := read_pushAll_of_forall_ne s h hc

end

/-- **The stacks of both processors.** On plain memory, up to `32768` words that are put onto the
stack come back in reverse order, from every initial stack pointer. -/
theorem stacksWords {β γ : Type} [Sm83.Bus β] [PlainMemory β] [Z80.Bus γ] [PlainMemory γ]
    (s : Sm83.Board β) (t : Z80.Board γ) {ws : List UInt16} (h : ws.length ≤ 32768) :
    StacksWords s ws ∧ StacksWords t ws :=
  ⟨stacksWords_of_plainMemory s h, stacksWords_of_plainMemory t h⟩

/-- Words whose bytes fill all of memory. -/
def fillingWords : List UInt16 :=
  (List.range 32768).map .ofNat

theorem length_fillingWords : fillingWords.length = 32768 := by
  rw [fillingWords, List.length_map, List.length_range]

theorem stacksWords_fillingWords :
    PlainMemory FlatBus ∧ PlainMemory Z80.PortBus ∧ fillingWords.length ≤ 32768 ∧
      StacksWords (⟨.create .zeroed, default⟩ : Sm83.Board FlatBus) fillingWords ∧
      StacksWords (⟨.create, .ofFlat default⟩ : Z80.Board Z80.PortBus) fillingWords :=
  have hlen : fillingWords.length ≤ 32768 := Nat.le_of_eq length_fillingWords
  ⟨inferInstance, inferInstance, hlen, stacksWords _ _ hlen⟩

end EightBit
