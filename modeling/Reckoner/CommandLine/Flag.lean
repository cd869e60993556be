import Reckoner.Session.Line

/-!
# Options of the command line

An option has a short name, a dash and a letter, and a long one after two dashes. On the command
line an option may stand under any start of its long name that no other option shares; a value may
be attached to it, after `=` or, to a short name, directly; and short names without values may share
a dash.
-/
namespace Reckoner.CommandLine

inductive Flag where
  | help
  | verbose
  | precision
  | bind
  | dump
  | expression
  | prompt
  deriving DecidableEq, Repr

/-- How many values an option takes. -/
inductive Arity where
  | none
  | one
  | atMostOne
  /-- Everything that follows. -/
  | rest
  deriving DecidableEq, Repr

namespace Flag

def all : List Flag := [.help, .verbose, .precision, .bind, .dump, .expression, .prompt]

def letter : Flag → Char
  | .help => 'h'
  | .verbose => 'v'
  | .precision => 'k'
  | .bind => 'b'
  | .dump => 'D'
  | .expression => 'e'
  | .prompt => 'p'

def longName : Flag → String
  | .help => "help"
  | .verbose => "verbose"
  | .precision => "precision"
  | .bind => "bind"
  | .dump => "dump"
  | .expression => "expression"
  | .prompt => "prompt"

/-- How many values the option takes. -/
def arity : Flag → Arity
  | .help | .verbose | .dump => .none
  | .precision | .bind => .one
  | .prompt => .atMostOne
  | .expression => .rest

def short (f : Flag) : List Char := ['-', f.letter]

def long (f : Flag) : List Char := '-' :: '-' :: f.longName.toList

/-- Both names, as messages show them. -/
def display (f : Flag) : String := String.ofList (f.short ++ '/' :: f.long)

def ofLetter? (c : Char) : Option Flag := all.find? (·.letter == c)

def ofName? (text : List Char) : Option Flag := all.find? fun f => f.short == text || f.long == text

end Flag

/-- What is wrong with the use of an option. -/
inductive Problem where
  | missingValue
  /-- A value for an option that takes none. -/
  | ignoredValue (text : List Char)
  | excludedBy (other : Flag)
  | badBinding (e : BindingError)
  | badCount (e : CountError)
  deriving DecidableEq, Repr

inductive UsageError where
  /-- The start of several long names. -/
  | ambiguous (text : List Char) (candidates : List Flag)
  | option (f : Flag) (problem : Problem)
  /-- Arguments that belong to no option. -/
  | unrecognized (arguments : List (List Char))
  /-- Not an error: help is asked for. -/
  | help
  deriving DecidableEq, Repr

def Problem.message : Problem → String
  | .missingValue => "expected one argument"
  | .ignoredValue text => s!"ignored explicit argument {quoted text}"
  | .excludedBy other => s!"not allowed with argument {other.display}"
  | .badBinding e => e.message
  | .badCount e => e.message

def UsageError.message : UsageError → String
  | .ambiguous text candidates =>
    let names := ", ".intercalate (candidates.map fun f => String.ofList f.long)
    s!"ambiguous option: {String.ofList text} could match {names}"
  | .option f problem => s!"argument {f.display}: {problem.message}"
  | .unrecognized arguments =>
    "unrecognized arguments: " ++ String.ofList (List.intercalate [' '] arguments)
  | .help => ""

end Reckoner.CommandLine
