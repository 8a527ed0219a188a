/-!
# The timing of the display controller

Of the display only the timing is modelled: the line being drawn, the mode within the line, whether
the line equals the one asked for, and the interrupts these give rise to. A frame has 154 lines of
456 dots; the last ten lines are the vertical blank.

Four conditions can be selected to drive one status line, and the status interrupt is requested
when that line rises, not while it is high.

## Main definitions

* `Lcd`: the registers and the position within the frame.
* `Lcd.mode`, `Lcd.coincides`, `Lcd.sourceActive`: what the registers report and what drives the
  status line.
* `Lcd.refresh`, `Lcd.rises`: bringing the status register up to date, and whether its line rises.
* `Lcd.advance`, `Lcd.entersBlank`: the next dot, and whether it begins the vertical blank.
-/

namespace EightBit.GameBoy

/-- Dots of one line. -/
def dotsPerLine : Nat := 456

/-- Lines of one frame, with those of the vertical blank. -/
def linesPerFrame : Nat := 154

/-- Dots, and T-cycles, of one frame. -/
def dotsPerFrame : Nat := dotsPerLine * linesPerFrame

/-- The first line of the vertical blank. -/
def blankLine : UInt8 := 144

/-- The registers of the display controller that timing depends on, and its position. -/
structure Lcd where
  /-- The control register. -/
  control : UInt8
  /-- The status register. -/
  status : UInt8
  /-- The line being drawn. -/
  line : UInt8
  /-- The line to be reported. -/
  compare : UInt8
  /-- Dots since the frame began. -/
  dots : Nat
  /-- The status line as it was last computed. -/
  statLine : Bool
  /-- Vertical blanks begun so far. -/
  frames : Nat
  deriving DecidableEq, Repr

namespace Lcd

/-- Whether a control value switches the display on. -/
@[inline] def switchedOn (control : UInt8) : Bool :=
  control &&& 0x80 != 0

/-- Whether the display is on. -/
@[inline] def isOn (d : Lcd) : Bool :=
  switchedOn d.control

/-- The mode: 1 in the vertical blank; before it each line goes through the search of object memory
(2), the transfer (3) and the horizontal blank (0). With the display off it is 0. -/
def mode (d : Lcd) : UInt8 :=
  if !d.isOn then 0
  else if blankLine ≤ d.line then 1
  else
    let dot := d.dots % dotsPerLine
    if dot < 80 then 2 else if dot < 80 + 172 then 3 else 0

/-- Whether the line drawn is the one to be reported. -/
@[inline] def coincides (d : Lcd) : Bool :=
  d.line == d.compare

/-- The status register with its read-only bits as they should be: bits 0 and 1 show the mode, bit
2 the coincidence, bit 7 is one, and the selections in between are kept. -/
def statusRead (d : Lcd) : UInt8 :=
  ((d.status &&& 0x78) ||| 0x80 ||| d.mode) ||| (if d.coincides then 0x04 else 0)

/-- Whether a condition that the status register selects holds. -/
def sourceActive (d : Lcd) : Bool :=
  d.isOn &&
    ((d.status &&& 0x40 != 0 && d.coincides) || (d.status &&& 0x20 != 0 && d.mode == 2) ||
      (d.status &&& 0x10 != 0 && d.mode == 1) || (d.status &&& 0x08 != 0 && d.mode == 0))

/-- Brings the status register and the status line up to date. -/
def refresh (d : Lcd) : Lcd :=
  { d with status := d.statusRead, statLine := d.sourceActive }

/-- Whether the status line rises when it is brought up to date. -/
@[inline] def rises (d : Lcd) : Bool :=
  !d.statLine && d.sourceActive

/-- The position after one dot of a display that is on. -/
def advance (d : Lcd) : Lcd :=
  let dots := (d.dots + 1) % dotsPerFrame
  { d with dots, line := UInt8.ofNat (dots / dotsPerLine) }

/-- Whether the vertical blank begins between two lines. -/
@[inline] def entersBlank (old new : UInt8) : Bool :=
  old < blankLine && blankLine ≤ new

/-- The position of a display that is off. -/
def rest (d : Lcd) : Lcd :=
  { d with dots := 0, line := 0, statLine := false }

end Lcd

end EightBit.GameBoy
