/-!
# The link port with nothing plugged in

A transfer that this side clocks is over as soon as it starts: the data byte goes to the output and
the start bit falls. A transfer on the other side's clock never happens.

## Main definitions

* `Serial`: the two registers and the bytes sent so far.
* `Serial.starts`, `Serial.writeControl`: which control values start a transfer, and its effect.
-/

namespace EightBit.GameBoy

/-- The state of the link port. -/
structure Serial where
  /-- The data register. -/
  sb : UInt8
  /-- The stored bits of the control register. -/
  sc : UInt8
  /-- The bytes sent so far, the first one first. -/
  output : Array UInt8
  deriving DecidableEq

namespace Serial

/-- The link port after power-on. -/
def powerOn : Serial where
  sb := 0
  sc := 0
  output := #[]

/-- The control value of a transfer that starts on this side's clock. -/
def startBits : UInt8 := 0x81

/-- Whether writing a control value starts, and at once completes, a transfer. -/
@[inline] def starts (v : UInt8) : Bool :=
  v &&& startBits == startBits

/-- A write to the data register. -/
def writeData (s : Serial) (v : UInt8) : Serial :=
  { s with sb := v }

/-- A write to the control register. -/
def writeControl (s : Serial) (v : UInt8) : Serial :=
  if starts v then { s with sc := v &&& 0x7F, output := s.output.push s.sb }
  else { s with sc := v }

/-- The control register as it reads: bits 1 to 6 are one. -/
@[inline] def controlRead (s : Serial) : UInt8 :=
  s.sc ||| 0x7E

end Serial

end EightBit.GameBoy
