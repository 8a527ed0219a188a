/-!
# The timer and divider

A hidden sixteen-bit counter advances every T-cycle; the divider register is its upper byte. The
timer counter is incremented whenever the bit of the hidden counter that the control register
selects falls while the timer is enabled, for whatever reason it falls: time, a write to the
divider, or a write to the control register. When the timer counter overflows it reads zero for
four T-cycles, and is then reloaded from the modulo register while the timer interrupt is
requested.

## Main definitions

* `Timer`, `Timer.signal`: the state and the line whose falling edges are counted.
* `Timer.tick`, `Timer.requests`: one T-cycle, and whether it requests the interrupt.
* `Timer.writeDivider`, `Timer.writeCounter`, `Timer.writeModulo`, `Timer.writeControl`: writes to
  the four registers.
-/

namespace EightBit.GameBoy

/-- The state of the timer. -/
structure Timer where
  /-- The hidden counter, incremented every T-cycle. -/
  counter : UInt16
  /-- The timer counter register. -/
  tima : UInt8
  /-- The timer modulo register. -/
  tma : UInt8
  /-- The three bits of the timer control register that exist. -/
  tac : UInt8
  /-- T-cycles left until the reload after an overflow; zero when none is due. -/
  overflowDelay : Nat
  /-- The enable bit of the control register. -/
  enabled : Bool
  deriving DecidableEq, Repr

namespace Timer

/-- T-cycles between an overflow and the reload. -/
def reloadDelay : Nat := 4

/-- The timer after power-on, when the boot program has let the divider count. -/
def powerOn : Timer where
  counter := 0xABCC
  tima := 0
  tma := 0
  tac := 0
  overflowDelay := 0
  enabled := false

/-- The divider register. -/
@[inline] def divider (t : Timer) : UInt8 :=
  (t.counter >>> 8).toUInt8

/-- The control register as it reads: the bits that do not exist are one. -/
@[inline] def controlRead (t : Timer) : UInt8 :=
  t.tac ||| 0xF8

/-- The bit of the hidden counter that a control value selects. -/
@[inline] def selectedBit (tac : UInt8) : UInt16 :=
  match tac &&& 3 with
  | 0 => 0x0200
  | 1 => 0x0008
  | 2 => 0x0020
  | _ => 0x0080

/-- The line whose falling edges are counted. -/
@[inline] def signal (t : Timer) : Bool :=
  t.enabled && (t.counter &&& selectedBit t.tac != 0)

/-- Counts one falling edge. An overflow makes a reload due. -/
def increment (t : Timer) : Timer :=
  { t with
    tima := t.tima + 1
    overflowDelay := if t.tima == 0xFF then reloadDelay else t.overflowDelay }

/-- Whether the next T-cycle reloads the counter and requests the interrupt. -/
@[inline] def requests (t : Timer) : Bool :=
  t.overflowDelay == 1

/-- Brings a reload that is due one T-cycle nearer. -/
def settle (t : Timer) : Timer :=
  match t.overflowDelay with
  | 0 => t
  | 1 => { t with tima := t.tma, overflowDelay := 0 }
  | n + 2 => { t with overflowDelay := n + 1 }

/-- Counts an edge if the line was high and has fallen. -/
@[inline] def countEdge (t : Timer) (before : Bool) : Timer :=
  if before && !t.signal then t.increment else t

/-- One T-cycle: first a reload that is due, then the counter. -/
def tick (t : Timer) : Timer :=
  let t := t.settle
  { t with counter := t.counter + 1 }.countEdge t.signal

/-- A write to the divider resets the hidden counter, whatever is written. -/
def writeDivider (t : Timer) : Timer :=
  { t with counter := 0 }.countEdge t.signal

/-- A write to the counter cancels a reload that is due. -/
def writeCounter (t : Timer) (v : UInt8) : Timer :=
  { t with tima := v, overflowDelay := 0 }

/-- A write to the modulo register; a reload that is due takes the new value. -/
def writeModulo (t : Timer) (v : UInt8) : Timer :=
  { t with tma := v }

/-- A write to the control register. -/
def writeControl (t : Timer) (v : UInt8) : Timer :=
  { t with tac := v &&& 7, enabled := v &&& 4 != 0 }.countEdge t.signal

end Timer

end EightBit.GameBoy
