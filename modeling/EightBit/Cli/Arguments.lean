import EightBit.Text.Numeral

/-!
# The command line

The arguments name a system and a program file, and options follow in any order: `--steps` and
`--frames` take the argument after them as their value, whatever it looks like, and `--trace` takes
none. Of an option that is repeated the last one counts. A command line that does not fit is
refused with the first fault from the left.

## Main definitions

* `SystemKind`, `ValueOption`, `RunConfig`: what a command line says.
* `ArgumentError`, with its `message` and `causes`: how one can fail to say it.
* `parseArguments`: the configuration of a command line.
-/

namespace EightBit.Cli

/-- The systems there are. -/
inductive SystemKind
  | gameBoy
  | z80
  deriving DecidableEq, Repr

/-- An option that takes a value. -/
inductive ValueOption
  /-- How many steps to run. -/
  | steps
  /-- How many frames to run. -/
  | frames
  deriving DecidableEq, Repr

namespace ValueOption

/-- The option as it is written. -/
def text : ValueOption → String
  | steps => "--steps"
  | frames => "--frames"

/-- What its value counts. -/
def noun : ValueOption → String
  | steps => "step"
  | frames => "frame"

/-- The first number too large for its value. -/
def limit : ValueOption → Nat
  | steps => UInt64.size
  | frames => UInt32.size

/-- The option that a text writes. -/
def ofText? (s : String) : Option ValueOption :=
  [steps, frames].find? (·.text == s)

end ValueOption

/-- How `--trace` is written. -/
def traceText : String := "--trace"

/-- Why a command line is refused. -/
inductive ArgumentError
  /-- The system or the program file is missing. -/
  | usage
  | unknownSystem (name : String)
  /-- An option stands last that takes a value. -/
  | missingValue (opt : ValueOption)
  /-- The value of an option is not a number it can take. -/
  | invalidValue (opt : ValueOption) (text : String) (fault : Numeral.Fault)
  /-- An argument is no option. -/
  | unexpected (text : String)
  deriving DecidableEq, Repr

/-- How the program is used. -/
def usageText : String :=
  "usage: retroboy <gb|z80> <rom> [--steps N] [--frames N] [--trace]"

namespace ArgumentError

/-- The wording of a refusal. -/
def message : ArgumentError → String
  | usage => usageText
  | unknownSystem name => "unknown system '" ++ name ++ "'. Supported: gb, z80"
  | missingValue opt => opt.text ++ " needs a value"
  | invalidValue opt text _ => "invalid " ++ opt.noun ++ " count '" ++ text ++ "'"
  | unexpected text => "unexpected argument '" ++ text ++ "'\n" ++ usageText

/-- What lies behind a refusal, the nearest first. -/
def causes : ArgumentError → List String
  | invalidValue _ _ fault => [fault.message]
  | _ => []

end ArgumentError

/-- The system that a name stands for. -/
def SystemKind.ofName (name : String) : Except ArgumentError SystemKind :=
  if name ∈ ["gb", "GB", "gameboy", "game-boy"] then .ok gameBoy
  else if name ∈ ["z80", "Z80", "cpm"] then .ok z80
  else .error (.unknownSystem name)

/-- The frames a Game Boy runs when nothing else is said. -/
def defaultFrames : Nat := 600

/-- What a command line says. -/
structure RunConfig where
  system : SystemKind
  /-- The program file. -/
  romPath : String
  /-- The steps to run at most. -/
  maxSteps : Option Nat := none
  /-- Whether executed instructions are recorded. -/
  trace : Bool := false
  /-- The frames a Game Boy runs when no steps are given. -/
  frames : Nat := defaultFrames
  deriving DecidableEq, Repr

/-- Sets the value of an option. -/
def RunConfig.setValue (c : RunConfig) (opt : ValueOption) (n : Nat) : RunConfig :=
  match opt with
  | .steps => { c with maxSteps := some n }
  | .frames => { c with frames := n }

/-- The value of an option that a text gives. -/
def ValueOption.parse (opt : ValueOption) (text : String) : Except ArgumentError Nat :=
  (Numeral.parse opt.limit text).mapError (.invalidValue opt text)

/-- Reads options from the left onto the configuration `c`. -/
def parseOptions (c : RunConfig) : List String → Except ArgumentError RunConfig
  | [] => .ok c
  | arg :: rest =>
    if arg = traceText then parseOptions { c with trace := true } rest
    else
      match ValueOption.ofText? arg with
      | none => .error (.unexpected arg)
      | some opt =>
        match rest with
        | [] => .error (.missingValue opt)
        | value :: rest =>
          match opt.parse value with
          | .ok n => parseOptions (c.setValue opt n) rest
          | .error e => .error e

/-- The configuration of a command line, given without the name of the program. -/
def parseArguments : List String → Except ArgumentError RunConfig
  | [] => .error .usage
  | name :: rest =>
    match SystemKind.ofName name, rest with
    | .error e, _ => .error e
    | .ok _, [] => .error .usage
    | .ok system, path :: options => parseOptions { system, romPath := path } options

end EightBit.Cli
