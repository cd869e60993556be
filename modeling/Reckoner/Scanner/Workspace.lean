import Reckoner.Scanner.Basic

/-!
# The workspace of a scan

While a scan is going on, states look at the text through a `Cursor`, and build tokens in a
`Workspace`. The token opened last is the active one: what is eaten goes there. A nested scan is a
single step of the workspace: it adds one token, or nothing.
-/
namespace Reckoner

/-- A position in a text; `rest` is the text from there on. -/
structure Cursor where
  input : List Char
  index : Nat
  rest : List Char

namespace Cursor

def place (input : List Char) (index : Nat) : Cursor := ⟨input, index, input.drop index⟩

/-- The character at the cursor, none at the end. -/
def char (c : Cursor) : Option Char := c.rest.head?

/-- The character `offset` places ahead, none past the end. Places before the start of the text
count from its end. -/
def peek (c : Cursor) (offset : Int) : Except Misuse (Option Char) :=
  let target : Int := c.index + offset
  let fromEnd : Int := c.input.length + target
  if 0 ≤ offset then .ok c.rest[offset.toNat]?
  else if 0 ≤ target then .ok c.input[target.toNat]?
  else if 0 ≤ fromEnd then .ok c.input[fromEnd.toNat]?
  else .error .beforeStart

end Cursor

variable {V T : Type}

structure Opened (V : Type) (T : Type := Int) where
  /-- Catches what is eaten before the first token is opened; never part of the result. -/
  loose : Token V T := {}
  /-- The tokens with their keys, the latest first. -/
  entries : List (Option String × Token V T) := []

namespace Opened

def active (o : Opened V T) : Token V T :=
  match o.entries with
  | [] => o.loose
  | (_, t) :: _ => t

def modifyActive (f : Token V T → Token V T) (o : Opened V T) : Opened V T :=
  match o.entries with
  | [] => { o with loose := f o.loose }
  | (k, t) :: rest => { o with entries := (k, f t) :: rest }

/-- Stores an entry in a keyed record. -/
def putEntry (entry : Option String × Token V T) (fields : List (String × Token V T)) :
    List (String × Token V T) :=
  match entry with
  | (some key, t) => putField key t fields
  | (none, _) => fields

/-- The record of the tokens. Under a key opened again the later token counts, in place of the
earlier one. -/
def record (mode : Mode) (o : Opened V T) : Record (Token V T) :=
  match mode with
  | .ordered => .ordered (o.entries.map (·.2)).reverse
  | .keyed => .keyed (o.entries.foldr putEntry [])

/-- Changes the lexeme of the latest token under a key, if there is one. -/
def changeLatest (key : String) (f : Lexeme T → Except Misuse (Lexeme T)) :
    List (Option String × Token V T) → Except Misuse (List (Option String × Token V T))
  | [] => .ok []
  | (k, t) :: rest =>
    if k = some key then do
      let l ← f t.lexeme
      return (k, { t with lexeme := l }) :: rest
    else do
      let rest ← changeLatest key f rest
      return (k, t) :: rest

end Opened

/-- The state of a scan between two actions. -/
structure Workspace (V : Type) (T : Type := Int) where
  opened : Opened V T := {}
  /-- Characters beyond the current one that a nested scan has consumed in this step. -/
  skip : Nat := 0
  /-- The log so far, the latest event first. -/
  log : List (Event V T) := []

namespace Workspace

def active (w : Workspace V T) : Token V T := w.opened.active

def modifyActive (f : Token V T → Token V T) (w : Workspace V T) : Workspace V T :=
  { w with opened := w.opened.modifyActive f }

def record (e : Event V T) (w : Workspace V T) : Workspace V T := { w with log := e :: w.log }

/-- A field that has no place among the fields of a token to be opened: its kind and its key are
given apart. -/
def givenApart? : Field V T → Option String
  | .kind _ => some "kind"
  | .unknown "key" => some "key"
  | _ => none

/-- Refuses fields, by the name that `isRefused?` gives them. -/
def refuse (isRefused? : Field V T → Option String) (fields : List (Field V T)) : Except Misuse Unit :=
  match fields.findSome? isRefused? with
  | some name => .error (.refusedField name)
  | none => .ok ()

/-- A key is needed exactly in keyed scanners. -/
def checkKey : Mode → Option String → Except Misuse Unit
  | .keyed, none => .error .missingKey
  | .ordered, some _ => .error .unexpectedKey
  | _, _ => .ok ()

def openToken (mode : Mode) (kind : Option Kind) (key : Option String) (fields : List (Field V T))
    (w : Workspace V T) : Except Misuse (Workspace V T) := do
  refuse givenApart? fields
  checkKey mode key
  refuse Field.unknown? fields
  let token : Token V T := Token.assign { kind := kind } fields
  return { w with opened := { w.opened with entries := (key, token) :: w.opened.entries } }

def eat (c : Option Char) (w : Workspace V T) : Except Misuse (Workspace V T) :=
  match c, w.active.lexeme with
  | none, _ => .error .nothingToEat
  | some c, .chars text => .ok (w.modifyActive fun t => { t with lexeme := .chars (text ++ [c]) })
  | some _, .made _ => .error .notCharacters

/-- Sets fields of the active token, in order, up to the first unknown one. -/
def assign (fields : List (Field V T)) (w : Workspace V T) : Workspace V T :=
  w.modifyActive fun t => t.assign fields

/-- Sets fields of the active token, all of which it has to have. -/
def update (fields : List (Field V T)) (w : Workspace V T) : Except Misuse (Workspace V T) :=
  match fields.findSome? Field.unknown? with
  | some name => .error (.noSuchField name)
  | none => .ok (w.assign fields)

/-- A field that a nested scan fills itself. -/
def nestedTokens? : Field V T → Option String
  | .children _ => some "children"
  | _ => none

/-- Scans the rest of the text with another tokenizer. If that consumes something, one token is
opened that spells what was consumed and has the nested tokens as its children, and the step will
skip past it. Otherwise the answer is false and nothing changes but the log. -/
def delegate (mode : Mode) (rest : List Char) (nested : Tokenizer V T) (kind : Option Kind)
    (key : Option String) (fields : List (Field V T)) (w : Workspace V T) :
    Except Misuse (Bool × Workspace V T) := do
  refuse givenApart? fields
  let outcome ← nested.run rest
  let w := { w with log := outcome.log.reverse ++ w.log }
  match outcome.result with
  | .error e => return (false, w.record (.rejected rest e))
  | .ok t =>
    if t.consumed = 0 then return (false, w)
    else
      refuse nestedTokens? fields
      let w ← w.openToken mode kind key (.children (some t.tokens) :: fields)
      let w := w.modifyActive fun token => { token with lexeme := .chars (rest.take t.consumed) }
      return (true, { w with skip := t.consumed - 1 })

end Workspace

end Reckoner
