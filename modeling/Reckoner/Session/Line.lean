import Reckoner.Decimal.Literal
import Reckoner.Text.Word

/-!
# Lines of a session

A line is an expression, or a name, `=` and an expression. Names are made of word characters and
start with no digit. On the command line a binding is a name, `=` and a literal, without blanks
around the `=`.
-/
namespace Reckoner

/-- A line: an expression, and the name its value is assigned to, if any. -/
structure Line where
  name : Option (List Char)
  expression : List Char
  deriving DecidableEq, Repr

variable [NameChars]

/-- The longest name at the start of a text, and the rest; none if the text starts with no name. A shorter
name is never called for, since neither white space nor `=` is part of a name. -/
def splitName? : List Char → Option (List Char × List Char)
  | [] => none
  | c :: rest =>
    if NameChars.isWordStart c then
      some (c :: rest.takeWhile NameChars.isWord, rest.dropWhile NameChars.isWord)
    else none

namespace Line

/-- An assignment: a name, blanks around it, `=` and an expression. -/
def assignment? (text : List Char) : Option Line :=
  match splitName? (text.dropWhile NameChars.isSpace) with
  | none => none
  | some (name, rest) =>
    match rest.dropWhile NameChars.isSpace with
    | '=' :: expression => some ⟨some name, expression⟩
    | _ => none

/-- A line of a session: an assignment if it can be one. -/
def read (text : List Char) : Line := (assignment? text).getD ⟨none, text⟩

/-- The lines of a session less their margins, without the blank ones. -/
def significant (texts : List (List Char)) : List (List Char) :=
  (texts.map strip).filter (· ≠ [])

/-- The lines of a text. They end at a line feed, a carriage return, or the one right after the
other. -/
def splitAll (text : List Char) : List (List Char) := go [] text
where
  /-- Splits a text, `current` being the start of a line in reverse. -/
  go (current : List Char) : List Char → List (List Char)
    | [] => [current.reverse]
    | '\r' :: '\n' :: rest => current.reverse :: go [] rest
    | '\r' :: rest => current.reverse :: go [] rest
    | '\n' :: rest => current.reverse :: go [] rest
    | c :: rest => go (c :: current) rest

end Line

/-! ## Bindings given in advance -/

inductive BindingError where
  /-- It is not a name, `=` and a value. -/
  | shape (text : List Char)
  | value (e : Literal.ReadError)
  deriving DecidableEq, Repr

def BindingError.message : BindingError → String
  | .shape text => s!"Expected NAME=VALUE, got {quoted text}"
  | .value e => e.message

def readBinding [DigitLimit] (text : List Char) : Except BindingError (List Char × Decimal) :=
  match splitName? text with
  | some (name, '=' :: value) =>
    if value = [] ∨ '\n' ∈ value then .error (.shape text)
    else do
      let d ← (Literal.read value).mapError .value
      return (name, d)
  | _ => .error (.shape text)

/-! ## Counts of digits -/

inductive CountError where
  | notACount (text : List Char)
  | negative (n : Int)
  deriving DecidableEq, Repr

def CountError.message : CountError → String
  | .notACount text => s!"Expected a digit count, got {quoted text}"
  | .negative n => s!"Negative digit count {String.ofList (Integer.write n)}"

def readCount [DigitLimit] (text : List Char) : Except CountError Nat :=
  match Integer.parse text with
  | .error _ => .error (.notACount text)
  | .ok n => if n < 0 then .error (.negative n) else .ok n.toNat

end Reckoner
