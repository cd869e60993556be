/-!
# Classes of characters

The classes that scanners tell apart. They are ASCII by design: a literal has no other digits, and
no other character separates or encloses.
-/
namespace Reckoner

/-- The classes of characters that scanners tell apart. -/
inductive CharClass where
  | digit
  | sign
  /-- The decimal mark, in either notation. -/
  | point
  | exponent
  /-- What stands between arguments. -/
  | separator
  | opening
  | closing
  | bracket
  | whitespace
  deriving DecidableEq, Repr

namespace CharClass

def members : CharClass → List Char
  | .digit => ['0', '1', '2', '3', '4', '5', '6', '7', '8', '9']
  | .sign => ['+', '-']
  | .point => ['.', ',']
  | .exponent => ['e', 'E']
  | .separator => [',', ';']
  | .opening => ['(', '[']
  | .closing => [')', ']']
  | .bracket => ['(', '[', ')', ']']
  | .whitespace => [' ', '\t', '\r', '\n']

def has (k : CharClass) (c : Char) : Bool := k.members.contains c

def hasSome (k : CharClass) (c : Option Char) : Bool := c.any k.has

def all : List CharClass :=
  [.digit, .sign, .point, .exponent, .separator, .opening, .closing, .bracket, .whitespace]

def name : CharClass → String
  | .digit => "digit"
  | .sign => "sign"
  | .point => "point"
  | .exponent => "exponent"
  | .separator => "separator"
  | .opening => "opening"
  | .closing => "closing"
  | .bracket => "bracket"
  | .whitespace => "whitespace"

def ofName? (n : String) : Option CharClass := all.find? (·.name == n)

end CharClass

end Reckoner
