/-!
# Hexadecimal text

Upper-case hexadecimal with a fixed number of digits, as listings and messages print bytes and
addresses, and its inverse on byte strings.

## Main definitions

* `Hex.byte`, `Hex.word`: two and four digits.
* `Hex.spaced`, `Hex.packed`: several bytes, with and without blanks between them.
* `Hex.parse?`: the bytes of a packed string.
-/

namespace EightBit.Hex

/-- The digit of a value below sixteen. -/
def digit (n : Nat) : Char :=
  Char.ofNat (if n < 10 then '0'.toNat + n else 'A'.toNat + (n - 10))

/-- The value of a digit of either case. -/
def value? (c : Char) : Option Nat :=
  if '0' ≤ c ∧ c ≤ '9' then some (c.toNat - '0'.toNat)
  else if 'A' ≤ c ∧ c ≤ 'F' then some (c.toNat - 'A'.toNat + 10)
  else if 'a' ≤ c ∧ c ≤ 'f' then some (c.toNat - 'a'.toNat + 10)
  else none

/-- The two digits of a byte. -/
def digits (b : UInt8) : List Char :=
  [digit (b.toNat / 16), digit (b.toNat % 16)]

/-- A byte as two digits. -/
def byte (b : UInt8) : String :=
  String.ofList (digits b)

/-- A word as four digits. -/
def word (w : UInt16) : String :=
  String.ofList (digits (w >>> 8).toUInt8 ++ digits w.toUInt8)

/-- Bytes as two digits each, a blank between neighbours. -/
def spaced (bs : List UInt8) : String :=
  " ".intercalate (bs.map byte)

/-- Bytes as two digits each, with nothing between them. -/
def packed (bs : List UInt8) : String :=
  String.ofList (bs.flatMap digits)

/-- Reads pairs of digits behind the bytes `acc`, of which the last one read comes first; an odd
digit or another character is refused. -/
def parseDigits? (acc : List UInt8) : List Char → Option (List UInt8)
  | [] => some acc.reverse
  | [_] => none
  | hi :: lo :: rest =>
    match value? hi, value? lo with
    | some h, some l => parseDigits? (UInt8.ofNat (16 * h + l) :: acc) rest
    | _, _ => none

/-- The bytes of a packed string. -/
def parse? (s : String) : Option (List UInt8) :=
  parseDigits? [] s.toList

end EightBit.Hex
