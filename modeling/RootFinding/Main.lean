import RootFinding.CommandLine.Command

/-!
# Command line

Solves the system given as arguments. Settings are taken from a file under the working directory.
-/

namespace RootFinding

namespace CommandLine

/-- How the command is called. -/
def usageText : String :=
  "usage: [-h] [--x0 NUMBER ...] [--method newton|secant] [--epsilon NUMBER] " ++
    "[--max-iterations INTEGER] [--seed INTEGER] [-v] equation ..."

/-- The settings file, absent where it cannot be read. -/
def readSettingsFile : IO SettingsFile :=
  try
    return .present (← IO.FS.readBinFile "data/nlsolver.json")
  catch _ =>
    return .absent

/-- Print what a command printed and return its exit code. -/
def finish (output : CommandOutput) : IO UInt32 := do
  for event in output.events do
    IO.eprintln event.line
  IO.print output.output
  IO.eprint output.errors
  return output.exitCode.toUInt32

end CommandLine

end RootFinding

open RootFinding CommandLine in
/-- Solve the system that the arguments give. -/
def main (arguments : List String) : IO UInt32 := do
  let entropy ← IO.rand 0 0xFFFFFFFF
  match Command.run (← readSettingsFile) entropy arguments with
  | .ok output => finish output
  | .error (.usage .helpWanted) =>
      IO.println usageText
      return 0
  | .error (.usage .rejected) =>
      IO.eprintln usageText
      return 2
  | .error (.settings _) =>
      IO.eprintln "The settings file is not readable text."
      return 1
  | .error .negativeSeed =>
      IO.eprintln "The seed is negative."
      return 1
  | .error .integerTooLarge =>
      IO.eprintln "A coordinate is too large."
      return 1
