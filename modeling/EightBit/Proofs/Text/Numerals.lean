import EightBit.Text.Numeral

/-!
# Which texts are numerals

A text is a numeral if digits follow the sign it may begin with, and their value is below the limit.
Otherwise it has a leftmost fault: nothing is there, nothing follows the sign, or behind digits with
a value below the limit comes a character that is no digit, or a digit that takes the value to the
limit. A text is one or the other, and the reader tells which.

## Main definitions

* `Numeral.IsBody`: the characters behind the sign.
* `Numeral.Denotes`: a text is a numeral with a value.
* `Numeral.Stops`, `Numeral.Faulty`: the leftmost fault of digits, and of a text.

## Main results

* `Numeral.readDigits_append`: digits are read one after the other.
* `Numeral.parse_eq_ok_iff`, `Numeral.parse_eq_error_iff`: what the reader says of a text.
* `Numeral.denotes_toString`: a number as it is printed.
-/

namespace EightBit.Numeral

open Nat (ofDigitChars ofDigitChars_cons ofDigitChars_nil)

/-- The characters of a text behind the sign it may begin with, of which there is at least one. -/
def IsBody (text cs : List Char) : Prop :=
  cs ≠ [] ∧ (text = '+' :: cs ∨ text = cs ∧ cs.head? ≠ some '+')

/-- The text `s` is a numeral below the limit, with the value `n`. -/
def Denotes (limit : Nat) (s : String) (n : Nat) : Prop :=
  ∃ ds, IsBody s.toList ds ∧ (∀ d ∈ ds, d.isDigit = true) ∧ ofDigitChars 10 ds 0 = n ∧ n < limit

/-- Among characters that continue digits with the value `acc`, the leftmost fault. -/
inductive Stops (limit acc : Nat) (cs : List Char) : Fault → Prop
  /-- A character is no digit. -/
  | invalidDigit {ds rest : List Char} {c : Char} (h : cs = ds ++ c :: rest)
    (hds : ∀ d ∈ ds, d.isDigit = true) (hvalue : ofDigitChars 10 ds acc < limit)
    (hc : c.isDigit = false) : Stops limit acc cs .invalidDigit
  /-- A digit takes the value to the limit or beyond. -/
  | tooLarge {ds rest : List Char} {c : Char} (h : cs = ds ++ c :: rest)
    (hds : ∀ d ∈ ds, d.isDigit = true) (hvalue : ofDigitChars 10 ds acc < limit)
    (hc : c.isDigit = true) (hlarge : limit ≤ ofDigitChars 10 (ds ++ [c]) acc) :
    Stops limit acc cs .tooLarge

/-- The leftmost fault of a text that is no numeral. -/
inductive Faulty (limit : Nat) (s : String) : Fault → Prop
  | empty (h : s.toList = []) : Faulty limit s .empty
  /-- Nothing follows the sign. -/
  | sign (h : s.toList = ['+']) : Faulty limit s .invalidDigit
  | digits {cs : List Char} {f : Fault} (h : IsBody s.toList cs) (hstops : Stops limit 0 cs f) :
    Faulty limit s f

variable {limit acc n : Nat} {ds cs : List Char} {f : Fault} {s : String}

/-! ### Digits -/

/-- Further digits never make the value smaller. -/
theorem le_ofDigitChars (cs : List Char) (acc : Nat) : acc ≤ ofDigitChars 10 cs acc := by
  induction cs generalizing acc with
  | nil => exact Nat.le_of_eq ofDigitChars_nil.symm
  | cons c cs ih =>
    rw [ofDigitChars_cons]
    refine Nat.le_trans ?_ (ih _)
    omega

/-- Digits are read one after the other, as long as their value stays below the limit. -/
theorem readDigits_append (hds : ∀ d ∈ ds, d.isDigit = true)
    (hvalue : ofDigitChars 10 ds acc < limit) (cs : List Char) :
    readDigits limit acc (ds ++ cs) = readDigits limit (ofDigitChars 10 ds acc) cs := by
  induction ds generalizing acc with
  | nil => rw [List.nil_append, ofDigitChars_nil]
  | cons d ds ih =>
    obtain ⟨hd, hrest⟩ := List.forall_mem_cons.1 hds
    rw [ofDigitChars_cons] at hvalue ⊢
    have hnext := Nat.lt_of_le_of_lt (le_ofDigitChars ds _) hvalue
    rw [List.cons_append, readDigits, if_pos hd]
    dsimp only
    rw [if_pos hnext]
    exact ih hrest hvalue

theorem readDigits_of_forall_isDigit (hds : ∀ d ∈ ds, d.isDigit = true)
    (hvalue : ofDigitChars 10 ds acc < limit) :
    readDigits limit acc ds = .ok (ofDigitChars 10 ds acc) := by
  have hread := readDigits_append hds hvalue []
  rwa [List.append_nil] at hread

/-- The reader stops at the leftmost fault. -/
theorem readDigits_of_stops (h : Stops limit acc cs f) : readDigits limit acc cs = .error f := by
  cases h with
  | invalidDigit hcs hds hvalue hc =>
    rw [hcs, readDigits_append hds hvalue, readDigits, if_neg (Bool.eq_false_iff.1 hc)]
  | tooLarge hcs hds hvalue hc hlarge =>
    rw [Nat.ofDigitChars_append, ofDigitChars_cons, ofDigitChars_nil] at hlarge
    rw [hcs, readDigits_append hds hvalue, readDigits, if_pos hc]
    dsimp only
    rw [if_neg (Nat.not_lt.2 hlarge)]

/-- A fault of the characters behind a digit is one of all. -/
theorem Stops.cons {d : Char} (hd : d.isDigit = true)
    (h : Stops limit (10 * acc + (d.toNat - '0'.toNat)) cs f) : Stops limit acc (d :: cs) f := by
  have hall {ds : List Char} (hds : ∀ d ∈ ds, d.isDigit = true) :
      ∀ d' ∈ d :: ds, d'.isDigit = true := List.forall_mem_cons.2 ⟨hd, hds⟩
  cases h with
  | invalidDigit hcs hds hvalue hc =>
    rw [← ofDigitChars_cons] at hvalue
    exact .invalidDigit (congrArg (d :: ·) hcs) (hall hds) hvalue hc
  | tooLarge hcs hds hvalue hc hlarge =>
    rw [← ofDigitChars_cons] at hvalue hlarge
    exact .tooLarge (congrArg (d :: ·) hcs) (hall hds) hvalue hc hlarge

/-- Characters are digits with a value below the limit, or have a fault. -/
theorem digits_or_stops (hacc : acc < limit) (cs : List Char) :
    (∀ c ∈ cs, c.isDigit = true) ∧ ofDigitChars 10 cs acc < limit ∨ ∃ f, Stops limit acc cs f := by
  induction cs generalizing acc with
  | nil => exact .inl ⟨List.forall_mem_nil _, by rwa [ofDigitChars_nil]⟩
  | cons c cs ih =>
    have hfirst : c :: cs = [] ++ c :: cs := rfl
    have hnone : ofDigitChars 10 [] acc < limit := by rwa [ofDigitChars_nil]
    by_cases hc : c.isDigit = true
    · by_cases hnext : 10 * acc + (c.toNat - '0'.toNat) < limit
      · obtain ⟨hcs, hvalue⟩ | ⟨f, hstops⟩ := ih hnext
        · exact .inl ⟨List.forall_mem_cons.2 ⟨hc, hcs⟩, by rwa [ofDigitChars_cons]⟩
        · exact .inr ⟨f, hstops.cons hc⟩
      · have hlarge : limit ≤ ofDigitChars 10 ([] ++ [c]) acc := by
          rw [List.nil_append, ofDigitChars_cons, ofDigitChars_nil]
          exact Nat.le_of_not_lt hnext
        exact .inr ⟨_, .tooLarge hfirst (List.forall_mem_nil _) hnone hc hlarge⟩
    · exact .inr ⟨_, .invalidDigit hfirst (List.forall_mem_nil _) hnone (Bool.eq_false_iff.2 hc)⟩

/-! ### Texts -/

theorem unsigned_of_isBody {text : List Char} (h : IsBody text cs) : unsigned text = .ok cs := by
  obtain ⟨hne, rfl | ⟨rfl, hhead⟩⟩ := h
  · cases cs with
    | nil => exact absurd rfl hne
    | cons c cs => rfl
  · rw [unsigned.eq_def]
    split
    next => exact absurd rfl hne
    next => exact absurd rfl hhead
    next => exact absurd rfl hhead
    next => rfl

/-- A text is empty, a sign alone, or has a body. -/
theorem isBody_cases (text : List Char) : text = [] ∨ text = ['+'] ∨ ∃ cs, IsBody text cs := by
  cases text with
  | nil => exact .inl rfl
  | cons c cs =>
    by_cases hc : c = '+'
    · subst hc
      cases cs with
      | nil => exact .inr (.inl rfl)
      | cons d ds => exact .inr (.inr ⟨d :: ds, List.cons_ne_nil _ _, .inl rfl⟩)
    · exact .inr (.inr ⟨c :: cs, List.cons_ne_nil _ _, .inr ⟨rfl, by simpa using hc⟩⟩)

theorem parse_of_denotes (h : Denotes limit s n) : parse limit s = .ok n := by
  obtain ⟨ds, hbody, hds, rfl, hlt⟩ := h
  rw [parse, unsigned_of_isBody hbody]
  exact readDigits_of_forall_isDigit hds hlt

theorem parse_of_faulty (h : Faulty limit s f) : parse limit s = .error f := by
  rw [parse]
  cases h with
  | empty hs => rw [hs]; rfl
  | sign hs => rw [hs]; rfl
  | digits hbody hstops =>
    rw [unsigned_of_isBody hbody]
    exact readDigits_of_stops hstops

/-- A text is a numeral or has a fault. -/
theorem denotes_or_faulty (hlimit : 0 < limit) (s : String) :
    (∃ n, Denotes limit s n) ∨ ∃ f, Faulty limit s f := by
  obtain hs | hs | ⟨cs, hbody⟩ := isBody_cases s.toList
  · exact .inr ⟨_, .empty hs⟩
  · exact .inr ⟨_, .sign hs⟩
  · obtain ⟨hcs, hvalue⟩ | ⟨f, hstops⟩ := digits_or_stops hlimit cs
    · exact .inl ⟨_, cs, hbody, hcs, rfl, hvalue⟩
    · exact .inr ⟨f, .digits hbody hstops⟩

/-- The reader accepts exactly the numerals below the limit. -/
theorem parse_eq_ok_iff (hlimit : 0 < limit) : parse limit s = .ok n ↔ Denotes limit s n := by
  refine ⟨fun h => ?_, parse_of_denotes⟩
  obtain ⟨k, hk⟩ | ⟨f, hf⟩ := denotes_or_faulty hlimit s
  · obtain rfl : k = n := Except.ok.inj ((parse_of_denotes hk).symm.trans h)
    exact hk
  · exact absurd ((parse_of_faulty hf).symm.trans h) nofun

/-- It refuses the other texts with their leftmost fault. -/
theorem parse_eq_error_iff (hlimit : 0 < limit) : parse limit s = .error f ↔ Faulty limit s f := by
  refine ⟨fun h => ?_, parse_of_faulty⟩
  obtain ⟨k, hk⟩ | ⟨g, hg⟩ := denotes_or_faulty hlimit s
  · exact absurd ((parse_of_denotes hk).symm.trans h) nofun
  · obtain rfl : g = f := Except.error.inj ((parse_of_faulty hg).symm.trans h)
    exact hg

/-- A number as it is printed is a numeral. -/
theorem denotes_toString (h : n < limit) : Denotes limit (toString n) n := by
  have hdigit {c : Char} (hc : c ∈ Nat.toDigits 10 n) : c.isDigit = true :=
    Nat.isDigit_of_mem_toDigits (by decide) (by decide) hc
  have htext : (toString n).toList = Nat.toDigits 10 n := Nat.toList_repr
  refine ⟨Nat.toDigits 10 n, ⟨Nat.toDigits_ne_nil, .inr ⟨htext, fun hplus => ?_⟩⟩,
    fun c hc => hdigit hc, Nat.ofDigitChars_ten_toDigits, h⟩
  exact absurd (hdigit (List.mem_of_head? hplus)) (by decide)

end EightBit.Numeral
