import Reckoner.Scanner.CharClass
import Reckoner.Scanner.Transformer

/-!
# Scanners as tables

A scanner can be given as data: each state is a list of rules, and a rule says on which characters
it applies, what it does and how the scan goes on. The first rule that applies is taken. A test
among a rule's actions may fail; then the next rule is tried, and what the earlier actions did
remains.
-/
namespace Reckoner.Table

variable {V : Type}

/-- On which characters a rule applies: all the conditions given have to hold. -/
structure Condition where
  /-- One of these characters. -/
  chars : Option (List Char) := none
  charClass : Option CharClass := none
  /-- At the end of the text, or before it. -/
  atEnd : Option Bool := none

/-- Does a condition hold of a character, or of the end of the text? -/
def Condition.holds (on : Condition) (c : Option Char) : Bool :=
  on.chars.all (fun cs => c.any cs.contains) &&
    on.charClass.all (fun k => k.hasSome c) &&
    on.atEnd.all (fun b => b == c.isNone)

inductive Action (V : Type) where
  | openToken (kind : Option Kind) (key : Option String) (fields : List (Field V))
  | eat
  | update (fields : List (Field V))
  /-- Notes the character that many places ahead. -/
  | peek (offset : Int)
  /-- Notes what the active token spells. -/
  | noteLexeme
  /-- Notes the active token. -/
  | noteActive
  /-- Tests what the active token spells. -/
  | ifText (text : List Char)
  /-- Tests whether another scanner accepts the rest of the text. -/
  | delegate (scanner : String) (kind : Option Kind) (key : Option String) (fields : List (Field V))

/-- How the scan goes on after a rule. -/
inductive Continuation where
  /-- In the state of a name, which is looked up when the scan gets there. -/
  | goto (name : String)
  /-- In the state of a name, which is looked up at once. -/
  | direct (name : String)
  /-- In another state with the same character. -/
  | call (name : String)
  | finish
  | fail (reason : Option String)

structure Rule (V : Type) where
  on : Condition
  actions : List (Action V)
  next : Continuation

/-- A scanner as a table. -/
structure Definition (V : Type) where
  start : String
  states : List (String × List (Rule V))
  mode : Designation := .name "ordered"
  transformers : List (String × Transformer) := []

/-- The reason for a failure if none is given. -/
def defaultReason : String := "unexpected character"

/-- Performs an action; the answer is false if it is a test that fails. -/
def Action.script (scanners : String → Option (Tokenizer V)) : Action V → Script V Bool
  | .openToken kind key fields => .openToken kind key fields (.done true)
  | .eat => .eat (.done true)
  | .update fields => .update fields (.done true)
  | .peek offset => .peek offset fun c => .note (.char c) (.done true)
  | .noteLexeme => .look fun opened => .note (.lexeme opened.active.lexeme) (.done true)
  | .noteActive => .look fun opened => .note (.token opened.active) (.done true)
  | .ifText text => .look fun opened => .done (opened.active.lexeme = .chars text)
  | .delegate name kind key fields =>
    match scanners name with
    | some nested => .delegate nested kind key fields .done
    | none => .abort (.noSuchScanner name)

/-- Performs actions up to the first test that fails. -/
def performAll (scanners : String → Option (Tokenizer V)) : List (Action V) → Script V Bool
  | [] => .done true
  | a :: rest => (a.script scanners).andThen fun passed =>
    if passed then performAll scanners rest else .done false

/-- Goes on after a rule, `call` being what a state does with the character. -/
def Continuation.script (states : List (String × List (Rule V)))
    (call : String → Script V (Verdict String)) : Continuation → Script V (Verdict String)
  | .goto name => .done (.gotoNamed name)
  | .direct name =>
    if (states.lookup name).isSome then .done (.goto name) else .abort (.noSuchState name)
  | .call name => call name
  | .finish => .done .finish
  | .fail reason => .done (.fail (reason.getD defaultReason))

/-- Takes the first rule that applies to a character. -/
def takeRule (scanners : String → Option (Tokenizer V))
    (next : Continuation → Script V (Verdict String)) (c : Option Char) :
    List (Rule V) → Script V (Verdict String)
  | [] => .done (.fail defaultReason)
  | r :: rest =>
    if r.on.holds c then
      (performAll scanners r.actions).andThen fun passed =>
        if passed then next r.next else takeRule scanners next c rest
    else takeRule scanners next c rest

/-- What a state does with a character, `depth` bounding how many states may call one another. -/
def behaviour (scanners : String → Option (Tokenizer V)) (states : List (String × List (Rule V))) :
    (depth : Nat) → String → Option Char → Script V (Verdict String)
  | 0, _, _ => .abort .tooDeep
  | depth + 1, name, c =>
    match states.lookup name with
    | none => .abort (.noSuchState name)
    | some rules =>
      takeRule scanners
        (Continuation.script states fun called => behaviour scanners states depth called c) c rules

/-- How many states may call one another on one character. -/
def callDepth : Nat := 900

def Definition.scanner (scanners : String → Option (Tokenizer V)) (d : Definition V) :
    Except DefinitionError (Scanner V String) :=
  Scanner.define d.start (d.states.map fun s => (s.1, s.1)) d.mode d.transformers id
    (behaviour scanners d.states callDepth)

/-- How deep scans of tables may nest. -/
def nestingDepth : Nat := 200

/-- The tokenizers of names: those given, and those of tables, nested up to a depth. -/
def tokenizers (given : String → Option (Tokenizer V)) (tables : List (String × Definition V)) :
    (depth : Nat) → String → Option (Tokenizer V)
  | 0, name => given name
  | depth + 1, name =>
    match tables.lookup name with
    | none => given name
    | some d =>
      match d.scanner (tokenizers given tables depth) with
      | .ok scanner => some scanner.tokenizer
      | .error _ => none

def firstError (given : String → Option (Tokenizer V)) :
    List (String × Definition V) → Option DefinitionError
  | [] => none
  | (_, d) :: rest =>
    match d.scanner given with
    | .ok _ => firstError given rest
    | .error e => some e

def runNamed (given : String → Option (Tokenizer V)) (tables : List (String × Definition V))
    (name : String) (text : List Char) : Except Misuse (Outcome V) :=
  match tokenizers given tables nestingDepth name with
  | some t => t.run text
  | none => .error (.noSuchScanner name)

end Reckoner.Table
