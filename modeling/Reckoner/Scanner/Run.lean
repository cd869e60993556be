import Reckoner.Scanner.Script

/-!
# Scanners and their runs

A scanner is a set of states, each of which says what to do with a character, or with the end of the
text. A run calls states on one character after the other, from the start of a text until one of
them ends it, and skips what nested scans have consumed. After the run, transformers change the
lexemes of keyed tokens. Main statement: a run never consumes more than the text
(`Scanner.consumed_le`), so that every scanner can be nested in another.
-/
namespace Reckoner

/-- What a scanner does to the lexeme of a key once its run is over. -/
abbrev Transformer (T : Type := Int) := Lexeme T → Except Misuse (Lexeme T)

/-- A scanner whose tokens hold values of `V`, whose states are of `σ`, and whose transformers make values of
`T`. -/
structure Scanner (V σ : Type) (T : Type := Int) where
  mode : Mode
  start : σ
  /-- The name under which messages speak of a state. -/
  label : σ → String
  /-- The state of a name. -/
  named : String → Option σ
  /-- What a state does with a character, or with the end of the text. -/
  behaviour : σ → Option Char → Script V (Verdict σ) T
  transformers : List (String × Transformer T) := []

namespace Scanner

variable {V σ T : Type}

/-- A scanner from a table of named states: the first of its states must be in the table, its mode
must be one, and only a keyed scanner may have transformers. -/
def define (start : String) (states : List (String × σ)) (mode : Designation)
    (transformers : List (String × Transformer T)) (label : σ → String)
    (behaviour : σ → Option Char → Script V (Verdict σ) T) : Except DefinitionError (Scanner V σ T) :=
  match states.lookup start with
  | none => .error (.noStart start)
  | some first =>
    match Mode.ofDesignation? mode with
    | none => .error (.noMode mode)
    | some mode =>
      if transformers ≠ [] ∧ mode ≠ .keyed then .error .transformersNeedKeys
      else .ok ⟨mode, first, label, (states.lookup ·), behaviour, transformers⟩

/-! ## Runs -/

def leave (w : Workspace V T) (result : Except LexError (Tokenization V T)) : Outcome V T :=
  ⟨w.log.reverse, result⟩

/-- Changes the lexemes of keys, one transformer after the other. -/
def transform (entries : List (Option String × Token V T)) :
    List (String × Transformer T) → Except Misuse (List (Option String × Token V T))
  | [] => .ok entries
  | (key, f) :: rest => do transform (← Opened.changeLatest key f entries) rest

def succeed (m : Scanner V σ T) (input : List Char) (index : Nat) (w : Workspace V T) :
    Except Misuse (Outcome V T) := do
  let entries ← transform w.opened.entries m.transformers
  let opened := { w.opened with entries := entries }
  return leave (w.record (.tokenized input index)) (.ok ⟨opened.record m.mode, index⟩)

def reject (w : Workspace V T) (e : LexError) : Outcome V T := leave w (.error e)

def call (m : Scanner V σ T) (input : List Char) (index : Nat) (rest : List Char) (state : σ)
    (w : Workspace V T) : Except Misuse (Verdict σ × Workspace V T) :=
  (m.behaviour state rest.head?).exec m.mode ⟨input, index, rest⟩ { w with skip := 0 }

/-- What follows the call of a state at the end of the text: no further character can come. -/
def atEnd (m : Scanner V σ T) (input : List Char) (index : Nat) (w : Workspace V T) :
    Verdict σ → Except Misuse (Outcome V T)
  | .finish => m.succeed input index w
  | .fail reason => .ok (reject w (.incomplete input reason))
  | .goto state => .ok (reject w (.incomplete input s!"ended in state {m.label state}"))
  | .gotoNamed name => .ok (reject w (.incomplete input s!"ended in state {name}"))

/-- Runs from a state, with `skip` characters of the rest consumed already. -/
def runFrom (m : Scanner V σ T) (input : List Char) :
    (rest : List Char) → (index skip : Nat) → σ → Workspace V T → Except Misuse (Outcome V T)
  | [], index, _, state, w => do
    let (verdict, w) ← m.call input index [] state w
    m.atEnd input index w verdict
  | _ :: rest, index, skip + 1, state, w => m.runFrom input rest (index + 1) skip state w
  | c :: rest, index, 0, state, w => do
    let (verdict, w) ← m.call input index (c :: rest) state w
    match verdict with
    | .finish => m.succeed input index w
    | .fail reason => .ok (reject w (.unexpected input index reason))
    | .goto next => m.runFrom input rest (index + 1) w.skip next w
    | .gotoNamed name =>
      match m.named name with
      | none => .error (.noSuchState name)
      | some next => m.runFrom input rest (index + 1) w.skip next w

def run (m : Scanner V σ T) (text : List Char) : Except Misuse (Outcome V T) :=
  m.runFrom text text 0 0 m.start {}

/-! ## A run stays within the text -/

theorem consumed_succeed {m : Scanner V σ T} {input : List Char} {index : Nat} {w : Workspace V T}
    {o : Outcome V T} {t : Tokenization V T} (h : m.succeed input index w = .ok o)
    (ht : o.result = .ok t) : t.consumed = index := by
  unfold succeed at h
  cases he : transform w.opened.entries m.transformers with
  | error e => simp [he, bind, Except.bind] at h
  | ok entries =>
    simp only [he, bind, Except.bind, pure, Except.pure, Except.ok.injEq] at h
    subst h
    simp only [leave, Except.ok.injEq] at ht
    subst ht
    rfl

theorem consumed_atEnd {m : Scanner V σ T} {input : List Char} {index : Nat} {w : Workspace V T}
    {v : Verdict σ} {o : Outcome V T} {t : Tokenization V T} (h : m.atEnd input index w v = .ok o)
    (ht : o.result = .ok t) : t.consumed = index := by
  cases v with
  | finish => exact consumed_succeed h ht
  | fail _ => cases h; cases ht
  | goto _ => cases h; cases ht
  | gotoNamed _ => cases h; cases ht

theorem consumed_runFrom_le {m : Scanner V σ T} {input : List Char} :
    ∀ {rest : List Char} {index skip : Nat} {state : σ} {w : Workspace V T} {o : Outcome V T}
      {t : Tokenization V T}, m.runFrom input rest index skip state w = .ok o → o.result = .ok t →
      t.consumed ≤ index + rest.length
  | [], index, skip, state, w, o, t, h, ht => by
    simp only [runFrom] at h
    cases hc : m.call input index [] state w with
    | error e => simp [hc, bind, Except.bind] at h
    | ok p =>
      simp only [hc, bind, Except.bind] at h
      simp [consumed_atEnd h ht]
  | _ :: rest, index, skip + 1, state, w, o, t, h, ht => by
    simp only [runFrom] at h
    have := consumed_runFrom_le h ht
    simp only [List.length_cons]
    omega
  | c :: rest, index, 0, state, w, o, t, h, ht => by
    simp only [runFrom] at h
    cases hc : m.call input index (c :: rest) state w with
    | error e => simp [hc, bind, Except.bind] at h
    | ok p =>
      obtain ⟨verdict, w'⟩ := p
      simp only [hc, bind, Except.bind] at h
      simp only [List.length_cons]
      cases verdict with
      | finish => have := consumed_succeed h ht; omega
      | fail _ => cases h; cases ht
      | goto _ => have := consumed_runFrom_le h ht; omega
      | gotoNamed name =>
        simp only at h
        split at h
        · cases h
        · have := consumed_runFrom_le h ht; omega

/-- A run consumes no more than the text. -/
theorem consumed_le (m : Scanner V σ T) (text : List Char) (o : Outcome V T) (t : Tokenization V T)
    (h : m.run text = .ok o) (ht : o.result = .ok t) : t.consumed ≤ text.length := by
  have := consumed_runFrom_le h ht
  omega

/-- A scanner as something that other scanners can nest. -/
def tokenizer (m : Scanner V σ T) : Tokenizer V T := ⟨m.run, m.consumed_le⟩

end Scanner

end Reckoner
