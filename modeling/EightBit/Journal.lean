import EightBit.Sm83.Interrupt
import EightBit.Trace.Entry

/-!
# The journal of notices

While it runs, a machine notes what a user may want to see: a program loaded, an interrupt taken,
an opcode without meaning. Each notice has a severity, and a journal keeps those that are at least
as severe as its threshold, in the order in which they arose. A journal without a threshold keeps
nothing.

## Main definitions

* `Severity`: how important a notice is.
* `Notice`, `Notice.severity`, `Notice.message`: what happened, and its wording.
* `Journal`, `Journal.note`: the notices kept so far, and one more.

## Main results

* `Journal.note_silent`: a journal without a threshold never changes.
-/

namespace EightBit

/-- How important a notice is, the most important first. -/
inductive Severity
  | error
  | warning
  | info
  | debug
  | trace
  deriving DecidableEq, Repr

namespace Severity

/-- The rank of a severity: less is more severe. -/
def rank : Severity → Nat
  | error => 0
  | warning => 1
  | info => 2
  | debug => 3
  | trace => 4

/-- The word a severity is shown as. -/
def label : Severity → String
  | error => "ERROR"
  | warning => "WARN"
  | info => "INFO"
  | debug => "DEBUG"
  | trace => "TRACE"

end Severity

/-- Something worth noting that happened in a machine. -/
inductive Notice
  /-- The SM83 met an opcode without a meaning; the register pairs are those at that moment. -/
  | sm83Invalid (opcode : UInt8) (pc sp af bc de hl : UInt16)
  /-- The SM83 took an interrupt. -/
  | sm83Interrupt (source : Sm83.InterruptSource) (vector pc sp : UInt16)
  /-- The Z80 met an opcode without a meaning. -/
  | z80Invalid (opcode : UInt8) (address : UInt16) (bytes : List UInt8)
      (af bc de hl sp : UInt16)
  /-- The Z80 took a non-maskable interrupt. -/
  | z80NonMaskable (returnTo : UInt16)
  /-- The Z80 took a maskable interrupt. -/
  | z80Maskable (mode : UInt8) (vector returnTo : UInt16)
  /-- In interrupt mode 0 the device supplied a byte that is no restart. -/
  | z80NotRestart (data : UInt8)
  /-- A write to the cartridge had no mapper to go to. -/
  | romWrite (value : UInt8) (address : UInt16)
  /-- Object memory was filled from the page that starts at `source`. -/
  | oamDma (source : UInt16)
  /-- The display was switched off. -/
  | displayDisabled
  /-- The display entered its vertical blank. -/
  | verticalBlank (oldLine newLine requests status : UInt8)
  /-- The display controller's status line rose. -/
  | statRise (status line mode requests : UInt8)
  /-- A cartridge image was loaded. -/
  | romLoaded (bytes : Nat)
  /-- A program image was loaded. -/
  | comLoaded (bytes : Nat)
  /-- The program jumped to the warm boot entry. -/
  | warmBoot (cycles : Nat)
  /-- The program asked the operating system for a function it does not have. -/
  | unsupportedBdos (function : UInt8)
  /-- A program file is about to run. -/
  | running (path : String)
  /-- A Game Boy run is over. -/
  | ranCycles (cycles : Nat)
  /-- A CP/M run is over and its program had not returned. -/
  | outOfSteps (steps : Nat)
  /-- An instruction was executed. -/
  | executed (entry : TraceEntry)

namespace Notice

/-- How important a notice is. -/
def severity : Notice → Severity
  | sm83Invalid .. | z80Invalid .. | z80NotRestart _ | unsupportedBdos _ | outOfSteps _ => .warning
  | romLoaded _ | comLoaded _ | warmBoot _ | running _ | ranCycles _ => .info
  | sm83Interrupt .. | z80NonMaskable _ | z80Maskable .. | oamDma _ | displayDisabled
  | verticalBlank .. | statRise .. => .debug
  | romWrite .. | executed _ => .trace

/-- A byte as messages print it. -/
def byte (b : UInt8) : String := "0x" ++ Hex.byte b

/-- A word as messages print it. -/
def word (w : UInt16) : String := "0x" ++ Hex.word w

/-- The wording of a notice. -/
def message : Notice → String
  | sm83Invalid opcode pc sp af bc de hl =>
    "GB CPU invalid opcode " ++ byte opcode ++ " at PC=" ++ word pc ++ " (SP=" ++ word sp
      ++ " AF=" ++ word af ++ " BC=" ++ word bc ++ " DE=" ++ word de ++ " HL=" ++ word hl ++ ")"
  | sm83Interrupt source vector pc sp =>
    "GB CPU interrupt: Interrupts(" ++ source.name ++ ") vector=" ++ word vector ++ " pc="
      ++ word pc ++ " sp=" ++ word sp
  | z80Invalid opcode address bytes af bc de hl sp =>
    "Z80 CPU: invalid opcode " ++ byte opcode ++ " at " ++ word address ++ " (bytes "
      ++ Hex.spaced bytes ++ ") AF=" ++ Hex.word af ++ " BC=" ++ Hex.word bc
      ++ " DE=" ++ Hex.word de ++ " HL=" ++ Hex.word hl ++ " SP=" ++ Hex.word sp
  | z80NonMaskable returnTo => "Z80: NMI accepted, return to " ++ word returnTo
  | z80Maskable mode vector returnTo =>
    "Z80: INT accepted in IM " ++ toString mode.toNat ++ ", vector " ++ word vector
      ++ ", return to " ++ word returnTo
  | z80NotRestart data =>
    "Z80: IM 0 data byte " ++ byte data ++ " is not an RST; using RST 38h"
  | romWrite value address =>
    "GB bus: ignored ROM write " ++ byte value ++ " -> " ++ word address
  | oamDma source => "GB bus: OAM DMA from " ++ word source
  | displayDisabled => "GB LCD: display disabled"
  | verticalBlank oldLine newLine requests status =>
    "GB LCD: VBlank edge (LY " ++ toString oldLine.toNat ++ "->" ++ toString newLine.toNat
      ++ "), IF=" ++ byte requests ++ ", STAT=" ++ byte status
  | statRise status line mode requests =>
    "GB LCD: STAT IRQ rising edge (STAT=" ++ byte status ++ " LY=" ++ toString line.toNat
      ++ " mode=" ++ toString mode.toNat ++ " IF=" ++ byte requests ++ ")"
  | romLoaded bytes => "GB: loaded " ++ toString bytes ++ " byte ROM"
  | comLoaded bytes => "CP/M: loaded " ++ toString bytes ++ " byte COM image"
  | warmBoot cycles => "CP/M: warm boot after " ++ toString cycles ++ " T-cycles"
  | unsupportedBdos function => "CP/M: unsupported BDOS function " ++ toString function.toNat
  | running path => "Running ROM path: '" ++ path ++ "'"
  | ranCycles cycles => "GB: ran " ++ toString cycles ++ " T-cycles"
  | outOfSteps steps =>
    "Z80: stopped after " ++ toString steps ++ " steps without returning to CP/M"
  | executed entry => entry.line

end Notice

/-- The notices kept so far. -/
structure Journal where
  /-- The least severe notices that are kept; `none` keeps nothing. -/
  threshold : Option Severity
  /-- The notices kept, the oldest first. -/
  notices : Array Notice

namespace Journal

/-- The empty journal of a threshold. -/
def create (threshold : Option Severity) : Journal where
  threshold := threshold
  notices := #[]

/-- The journal that keeps nothing. -/
def silent : Journal := create none

instance : Inhabited Journal := ⟨silent⟩

/-- Whether notices of a severity are kept. -/
@[inline] def keeps (j : Journal) (s : Severity) : Bool :=
  match j.threshold with
  | some t => s.rank ≤ t.rank
  | none => false

/-- Adds a notice, if it is severe enough. -/
def note (n : Notice) (j : Journal) : Journal :=
  if j.keeps n.severity then { j with notices := j.notices.push n } else j

/-- The lines of a journal: the severity of each notice and its wording. -/
def lines (j : Journal) : List String :=
  j.notices.toList.map fun n => n.severity.label ++ " " ++ n.message

@[simp] theorem threshold_note (n : Notice) (j : Journal) :
    (j.note n).threshold = j.threshold := by
  unfold note
  split <;> rfl

/-- A journal without a threshold never changes. -/
@[simp] theorem note_silent (n : Notice) : silent.note n = silent := rfl

end Journal

end EightBit
