/-!
# Unsigned decimal numerals

A numeral is a non-empty run of decimal digits, with at most one `+` in front, whose value is below
a limit. A text that is no numeral is refused with the first fault met from the left.

## Main definitions

* `Numeral.Fault`, `Numeral.Fault.message`: what can be wrong, and its wording.
* `Numeral.parse`: the value of a numeral below a limit.
-/

namespace EightBit.Numeral

/-- Why a text is not a numeral. -/
inductive Fault
  /-- The text has no character at all. -/
  | empty
  /-- A character that is not a digit, or a sign with no digit after it. -/
  | invalidDigit
  /-- The digits read so far denote the limit or more. -/
  | tooLarge
  deriving DecidableEq, Repr

/-- The wording of a fault. -/
def Fault.message : Fault → String
  | .empty => "cannot parse integer from empty string"
  | .invalidDigit => "invalid digit found in string"
  | .tooLarge => "number too large to fit in target type"

/-- Reads digits from the left onto the value `acc` of those already read. -/
def readDigits (limit : Nat) : (acc : Nat) → List Char → Except Fault Nat
  | acc, [] => .ok acc
  | acc, c :: cs =>
    if c.isDigit then
      let next := 10 * acc + (c.toNat - '0'.toNat)
      if next < limit then readDigits limit next cs else .error .tooLarge
    else .error .invalidDigit

/-- The digits of a numeral, after the sign it may begin with. -/
def unsigned : List Char → Except Fault (List Char)
  | [] => .error .empty
  | ['+'] => .error .invalidDigit
  | '+' :: cs => .ok cs
  | cs => .ok cs

/-- The value of the numeral `s`, which must be below `limit`. -/
def parse (limit : Nat) (s : String) : Except Fault Nat :=
  (unsigned s.toList).bind (readDigits limit 0)

end EightBit.Numeral
