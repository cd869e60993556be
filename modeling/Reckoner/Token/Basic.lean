/-!
# Tokens

A token is a piece of a text: what kind of piece it is, what it spells, and what scanners and
readers attach to it. Scanners nest, so a token may hold the tokens of the scan that recognised it,
either in order or under keys. What a scanner makes of the characters of a token may be of any type `T`;
in the calculator itself it is an integer.
-/
namespace Reckoner

/-- What kind of piece a token is. Scanners are free to use further kinds of their own. -/
inductive Kind where
  | number
  | variable
  | function
  | operator
  | bracket
  | comma
  | other (name : String)
  deriving DecidableEq, Repr

def Kind.name : Kind → String
  | .number => "number"
  | .variable => "variable"
  | .function => "function"
  | .operator => "operator"
  | .bracket => "bracket"
  | .comma => "comma"
  | .other name => name

def Kind.ofName : String → Kind
  | "number" => .number
  | "variable" => .variable
  | "function" => .function
  | "operator" => .operator
  | "bracket" => .bracket
  | "comma" => .comma
  | name => .other name

theorem Kind.name_ofName (name : String) : (Kind.ofName name).name = name := by
  unfold Kind.ofName
  split <;> rfl

/-- What a token spells: the characters eaten under it, or what has been made of them. -/
inductive Lexeme (T : Type := Int) where
  | chars (text : List Char)
  | made (value : T)
  deriving DecidableEq, Repr

/-- The characters of a lexeme that nothing else has been made of. -/
def Lexeme.chars? {T : Type} : Lexeme T → Option (List Char)
  | .chars text => some text
  | .made _ => none

/-- The results of a scan, in order or under distinct keys in the order of their first use. -/
inductive Record (α : Type) where
  | ordered (items : List α)
  | keyed (fields : List (String × α))

/-- Stores an entry under a key; a key in use keeps its place and takes the new entry. -/
def putField {α : Type} (key : String) (a : α) : List (String × α) → List (String × α)
  | [] => [(key, a)]
  | (k, b) :: rest => if k = key then (k, a) :: rest else (k, b) :: putField key a rest

/-- A piece of a text. -/
structure Token (V : Type) (T : Type := Int) where
  kind : Option Kind := none
  lexeme : Lexeme T := .chars []
  /-- The tokens of the nested scan that recognised this one. -/
  children : Option (Record (Token V T)) := none
  /-- Brackets only: does it close a group? -/
  closing : Option Bool := none
  /-- What a reader made of the token. -/
  value : Option V := none

variable {V T : Type}

/-- The characters that a token spells, none if something else has been made of them. -/
def Token.text (t : Token V T) : List Char := (t.lexeme.chars?).getD []

/-! ## Equality -/

section Equality

variable [DecidableEq T]

mutual

/-- Are two tokens equal, field by field, with values compared by `eqv`? -/
def Token.same (eqv : V → V → Bool) : Token V T → Token V T → Bool
  | ⟨kind, lexeme, children, closing, value⟩, b =>
    kind = b.kind && lexeme = b.lexeme && closing = b.closing &&
      (match value, b.value with
        | none, none => true
        | some v, some w => eqv v w
        | _, _ => false) &&
      sameChildren eqv children b.children
termination_by structural a => a

def sameChildren (eqv : V → V → Bool) :
    Option (Record (Token V T)) → Option (Record (Token V T)) → Bool
  | none, none => true
  | some r, some s => Record.same eqv r s
  | _, _ => false
termination_by structural a => a

/-- Are two records equal? The order of keys does not count. -/
def Record.same (eqv : V → V → Bool) : Record (Token V T) → Record (Token V T) → Bool
  | .ordered ts, .ordered us => sameItems eqv ts us
  | .keyed fs, .keyed gs => fs.length = gs.length && sameFields eqv fs gs
  | _, _ => false
termination_by structural a => a

def sameItems (eqv : V → V → Bool) : List (Token V T) → List (Token V T) → Bool
  | [], [] => true
  | t :: ts, u :: us => Token.same eqv t u && sameItems eqv ts us
  | _, _ => false
termination_by structural a => a

/-- Is every field of the first list also in the second? -/
def sameFields (eqv : V → V → Bool) : List (String × Token V T) → List (String × Token V T) → Bool
  | [], _ => true
  | (k, t) :: fs, gs =>
    (match gs.lookup k with
      | some u => Token.same eqv t u
      | none => false) && sameFields eqv fs gs
termination_by structural a => a

end

end Equality

/-! ## Fields -/

/-- A value for one of a token's fields, or for a field that tokens do not have. -/
inductive Field (V : Type) (T : Type := Int) where
  | kind (k : Option Kind)
  | lexeme (l : Lexeme T)
  | children (r : Option (Record (Token V T)))
  | closing (b : Option Bool)
  | value (v : Option V)
  | unknown (name : String)

/-- The token with one field set; an unknown field changes nothing. -/
def Token.set (t : Token V T) : Field V T → Token V T
  | .kind k => { t with kind := k }
  | .lexeme l => { t with lexeme := l }
  | .children r => { t with children := r }
  | .closing b => { t with closing := b }
  | .value v => { t with value := v }
  | .unknown _ => t

def Field.unknown? : Field V T → Option String
  | .unknown name => some name
  | _ => none

/-- The token with fields set in order, up to the first unknown one. -/
def Token.assign (t : Token V T) : List (Field V T) → Token V T
  | [] => t
  | .unknown _ :: _ => t
  | f :: fs => Token.assign (t.set f) fs

end Reckoner
