import Reckoner.CommandLine.Options
import Reckoner.Session.Journal

/-!
# The program

From the arguments and the standard input to what is printed. The lines come from the command line
if it has any, else from the standard input.
-/
namespace Reckoner.CommandLine

/-- Lines of text, each with a line feed. -/
def unlines (lines : List String) : String := String.join (lines.map (· ++ "\n"))

def results (outputs : List Session.Output) : List String :=
  outputs.filterMap fun
    | .result line => some line
    | .report _ => none

def reports (outputs : List Session.Output) : List String :=
  outputs.filterMap fun
    | .report line => some line
    | .result _ => none

/-- What the program breaks off for. -/
inductive Breakdown where
  /-- The option for bindings came without one, at that place among its uses. -/
  | noBinding (position : Nat)
  | session (e : Session.Breakdown)
  deriving DecidableEq, Repr

def Breakdown.message : Breakdown → String
  | .noBinding position =>
    let number := String.ofList (Integer.digits position)
    s!"dictionary update sequence element #{number} has length 0; 2 is required"
  | .session e => e.message

/-- What a run of the program leaves. The trace of what it has been broken off for is not among its reports. -/
structure Report where
  exitCode : Nat
  stdout : String
  stderr : String
  breakdown : Option Breakdown := none
  deriving DecidableEq, Repr

/-- The bindings that a session starts with, the last one of a name first, if none is missing. -/
def initialBindings (given : List (Option (List Char × Decimal))) :
    Except Breakdown Session.Bindings :=
  match given.findIdx? (·.isNone) with
  | some position => .error (.noBinding position)
  | none => .ok (given.filterMap id).reverse

variable [DigitLimit] [NameChars]

/-- The session that options ask for, on given lines. -/
def perform (o : Options) (lines : List (List Char)) : Session.Printout Breakdown :=
  let texts := Line.significant lines
  if o.dump then (Session.dumpAll o.verbose texts).map .session
  else
    match initialBindings o.bindings with
    | .error e => ⟨[], some e⟩
    | .ok bindings => (Session.evaluateAll o.verbose o.precision bindings texts).map .session

/-- The report on a session that has ended, in whichever way. -/
def finished (printout : Session.Printout Breakdown) : Report where
  exitCode := if printout.breakdown.isSome then 1 else 0
  stdout := unlines (results printout.outputs)
  stderr := unlines (reports printout.outputs)
  breakdown := printout.breakdown

/-- The report on a command line that cannot be used. -/
def refused : UsageError → Report
  | .help => { exitCode := 0, stdout := "", stderr := "" }
  | e => { exitCode := 2, stdout := "", stderr := s!"rpnexpr: error: {e.message}\n" }

def run (arguments : List (List Char)) (input : List Char) : Report :=
  match readOptions arguments with
  | .error e => refused e
  | .ok o => finished (perform o (o.expressions.getD (Line.splitAll input)))

end Reckoner.CommandLine
