import EightBit.Cli.Run

/-!
# The command

Reads the program file, runs it, and prints the trace and the output of the run. A command line
that is refused ends with exit code 2, a run that does not start with exit code 1.
-/

namespace EightBit.Cli

/-- The contents of a file, if it can be read. -/
def contentsOf? (path : String) : IO (Option (List UInt8)) := do
  try
    let bytes ← IO.FS.readBinFile path
    return some bytes.toList
  catch _ => return none

/-- Prints what a run produced. -/
def printReport (r : Report) : IO Unit := do
  let out ← IO.getStdout
  for e in r.trace do
    out.putStrLn e.line
  out.write ⟨r.output.toArray⟩
  out.flush

/-- Runs the command line `args`, and says with which exit code it ends. -/
def runCommand (args : List String) : IO UInt32 := do
  match parseArguments args with
  | .error e =>
    IO.eprintln e.message
    return 2
  | .ok config =>
    let contents ← contentsOf? config.romPath
    match (run config contents .silent).1 with
    | .error e =>
      IO.eprintln ("Error: " ++ e.message)
      for cause in e.causes do
        IO.eprintln ("\nCaused by:\n    " ++ cause)
      return 1
    | .ok report =>
      printReport report
      return 0

end EightBit.Cli

/-- The command. -/
def main (args : List String) : IO UInt32 :=
  EightBit.Cli.runCommand args
