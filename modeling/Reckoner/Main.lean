import Reckoner.CommandLine.Program

/-!
# The command line

Reads the arguments, and the standard input if the arguments bring no expressions, and prints what
the program reports. The limit on conversions is the one that holds unless it is changed.
-/
open Reckoner in
def main (arguments : List String) : IO UInt32 := do
  let _ : DigitLimit := .standard
  let _ : NameChars := .unicode17
  let arguments := arguments.map String.toList
  let needsInput := match CommandLine.readOptions arguments with
    | .ok o => o.expressions.isNone
    | .error _ => false
  let input ← if needsInput then (← IO.getStdin).readToEnd else pure ""
  let report := CommandLine.run arguments input.toList
  IO.print report.stdout
  IO.eprint report.stderr
  if let some e := report.breakdown then IO.eprintln e.message
  return report.exitCode.toUInt32
