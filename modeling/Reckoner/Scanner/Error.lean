import Reckoner.Text.Conversion

/-!
# What can go wrong in a scan

A text may not be what a scanner recognises: that is a `LexError`, and an enclosing scan recovers
from it. A scanner may itself be at fault, in its definition (`DefinitionError`) or in what one of
its states asks for (`Misuse`): no scan recovers from that.
-/
namespace Reckoner

inductive LexError where
  /-- The character at a position cannot be scanned. -/
  | unexpected (input : List Char) (position : Nat) (reason : String)
  /-- The text ends too early. -/
  | incomplete (input : List Char) (reason : String)
  deriving DecidableEq, Repr

def LexError.message : LexError → String
  | .unexpected input position reason =>
    s!"Couldn't lex {quoted input} at position {position}: {reason}"
  | .incomplete input reason => s!"Incomplete input {quoted input}: {reason}"

/-- What a state may not ask for. -/
inductive Misuse where
  /-- A keyed scanner opens a token without a key. -/
  | missingKey
  /-- An ordered scanner opens a token with a key. -/
  | unexpectedKey
  /-- The character to eat is past the end. -/
  | nothingToEat
  /-- The active token spells no characters any more, so that none can be added. -/
  | notCharacters
  /-- A field that a token cannot be opened with. -/
  | refusedField (name : String)
  /-- A field that tokens do not have. -/
  | noSuchField (name : String)
  /-- A character before the start of the text. -/
  | beforeStart
  /-- A state that the scanner does not have. -/
  | noSuchState (name : String)
  /-- A scanner that does not exist. -/
  | noSuchScanner (name : String)
  /-- A text that was to become an integer, or an integer to be written. -/
  | conversion (e : Integer.Error)
  /-- States or scanners that invoke one another without end. -/
  | tooDeep
  deriving DecidableEq, Repr

def Misuse.message : Misuse → String
  | .missingKey => "Keyed machines need a token key"
  | .unexpectedKey => "Ordered machines take no token key"
  | .nothingToEat => "Nothing to eat past the end of input"
  | .notCharacters => "not a text"
  | .refusedField name => s!"Tokens are not opened with a {name} field"
  | .noSuchField name => s!"Tokens have no {name} field"
  | .beforeStart => "string index out of range"
  | .noSuchState name => name
  | .noSuchScanner name => name
  | .conversion e => e.message
  | .tooDeep => "maximum recursion depth exceeded"

/-- What a definition gives where a name is due: a name, or something else as messages show it. -/
inductive Designation where
  | name (text : String)
  | other (shown : String)
  deriving DecidableEq, Repr

def Designation.describe : Designation → String
  | .name text => quoted text.toList
  | .other shown => shown

inductive DefinitionError where
  | noStart (name : String)
  | noMode (mode : Designation)
  | transformersNeedKeys
  deriving DecidableEq, Repr

def DefinitionError.message : DefinitionError → String
  | .noStart name => s!"No start state {quoted name.toList}"
  | .noMode mode => s!"No such mode {mode.describe}"
  | .transformersNeedKeys => "Transformers need a keyed machine"

end Reckoner
