import Reckoner.Session.Basic

/-!
# The journal of a session

What a session prints: values, tables of tokens and errors, and in between, if it is to be verbose,
how the scans and the reordering of each line went. What has been printed stays if the session is broken off.
-/
namespace Reckoner.Session

/-- A line of output, on one of the two channels. -/
inductive Output where
  | result (line : String)
  | report (line : String)
  deriving DecidableEq, Repr

/-- What is printed, up to where it is broken off, if it is. -/
structure Printout (ε : Type) where
  outputs : List Output
  breakdown : Option ε
  deriving DecidableEq, Repr

namespace Printout

variable {ε δ : Type}

def prepend (outputs : List Output) (p : Printout ε) : Printout ε :=
  { p with outputs := outputs ++ p.outputs }

def map (f : ε → δ) (p : Printout ε) : Printout δ := ⟨p.outputs, p.breakdown.map f⟩

end Printout

def describeEvent {V : Type} : Event V → Option String
  | .tokenized input consumed =>
    some s!"DEBUG [rpnexpr.statemachine] Tokenized {quoted input}, {consumed} character(s) consumed"
  | .rejected rest e =>
    some s!"DEBUG [rpnexpr.statemachine] Delegation over {quoted rest} rejected: {e.message}"
  | .note _ => none

variable [DigitLimit] [NameChars]

/-- How the scans of an expression went, and what it is in postorder. -/
def trace (expression : List Char) : List String :=
  let scans := match (Lexer.scanner (V := Decimal)).run expression with
    | .ok outcome => outcome.log.filterMap describeEvent
    | .error _ => []
  let order := match Expression.parse (V := Decimal) expression with
    | .ok e => [s!"DEBUG [rpnexpr.parser] Converted to postfix: {String.ofList e.render}"]
    | .error _ => []
  scans ++ order

/-- What precedes the answer to a line. -/
def preamble (verbose : Bool) (text : List Char) : List Output :=
  if verbose then (trace (Line.read text).expression).map .report else []

def reportError (verbose : Bool) (e : Error) : List Output :=
  (if verbose then [.report "DEBUG [rpnexpr.cli] Failed"] else []) ++ [.report e.message]

def printReply (verbose : Bool) : Reply → List Output
  | .ok result => [.result (String.ofList result.text)]
  | .error e => reportError verbose e

/-- Tokens, one on a line. -/
def printTokens : List (Token Decimal) → Printout Breakdown
  | [] => ⟨[], none⟩
  | t :: ts =>
    match t.lexeme.describe describeInt with
    | .error e => ⟨[], some (.unprintable e)⟩
    | .ok shown => (printTokens ts).prepend [.result s!"{kindName t.kind}\t{shown}"]

/-- The output of a session that evaluates lines. The line that it is broken off on is announced, but has no
answer. -/
def evaluateAll (verbose : Bool) (precision : Option Nat) (bindings : Bindings)
    (texts : List (List Char)) : Printout Breakdown :=
  let course := run (format precision) bindings texts
  let answers := (texts.zip course.replies).flatMap fun (text, reply) =>
    preamble verbose text ++ printReply verbose reply
  ⟨answers ++ (texts.drop course.replies.length).head?.elim [] (preamble verbose), course.breakdown⟩

/-- The output on lines of which the tokens are shown in postorder. -/
def dumpLines (verbose : Bool) : List (List Char) → Printout Breakdown
  | [] => ⟨[], none⟩
  | text :: texts =>
    match dump text with
    | .error e => ⟨preamble verbose text, some e⟩
    | .ok (.error e) => (dumpLines verbose texts).prepend (preamble verbose text ++ reportError verbose e)
    | .ok (.ok tokens) =>
      let shown := (printTokens tokens).prepend (preamble verbose text)
      match shown.breakdown with
      | some _ => shown
      | none => (dumpLines verbose texts).prepend shown.outputs

/-- The output of a session that shows the tokens of lines, under a heading. -/
def dumpAll (verbose : Bool) (texts : List (List Char)) : Printout Breakdown :=
  (dumpLines verbose texts).prepend [.result "<kind>\t<repr(text)>"]

end Reckoner.Session
