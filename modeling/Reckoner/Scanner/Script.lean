import Reckoner.Scanner.Workspace

/-!
# Scripts

What a state does with a character is a script: a finite tree of the actions that a scan offers,
ending in a verdict on how to go on. A script knows the text only through its peeks and its nested
scans, so that what it depends on can be read off it.
-/
namespace Reckoner

/-- Actions on a scan in progress, ending in an answer. -/
inductive Script (V : Type) (α : Type) (T : Type := Int) : Type where
  | done (a : α)
  | openToken (kind : Option Kind) (key : Option String) (fields : List (Field V T))
      (next : Script V α T)
  | eat (next : Script V α T)
  | update (fields : List (Field V T)) (next : Script V α T)
  | peek (offset : Int) (next : Option Char → Script V α T)
  /-- Looks at the tokens opened so far. -/
  | look (next : Opened V T → Script V α T)
  | delegate (nested : Tokenizer V T) (kind : Option Kind) (key : Option String)
      (fields : List (Field V T)) (next : Bool → Script V α T)
  | note (n : Note V T) (next : Script V α T)
  | abort (m : Misuse)

namespace Script

variable {V T α β : Type}

def andThen : Script V α T → (α → Script V β T) → Script V β T
  | done a, f => f a
  | openToken kind key fields next, f => openToken kind key fields (next.andThen f)
  | eat next, f => eat (next.andThen f)
  | update fields next, f => update fields (next.andThen f)
  | peek offset next, f => peek offset fun c => (next c).andThen f
  | look next, f => look fun o => (next o).andThen f
  | delegate nested kind key fields next, f =>
    delegate nested kind key fields fun b => (next b).andThen f
  | note n next, f => note n (next.andThen f)
  | abort m, _ => abort m

def exec (mode : Mode) (cursor : Cursor) :
    Script V α T → Workspace V T → Except Misuse (α × Workspace V T)
  | done a, w => .ok (a, w)
  | openToken kind key fields next, w => do
    next.exec mode cursor (← w.openToken mode kind key fields)
  | eat next, w => do next.exec mode cursor (← w.eat cursor.char)
  | update fields next, w => do next.exec mode cursor (← w.update fields)
  | peek offset next, w => do (next (← cursor.peek offset)).exec mode cursor w
  | look next, w => (next w.opened).exec mode cursor w
  | delegate nested kind key fields next, w => do
    let (accepted, w) ← w.delegate mode cursor.rest nested kind key fields
    (next accepted).exec mode cursor w
  | note n next, w => next.exec mode cursor (w.record (.note n))
  | abort m, _ => .error m

end Script

/-- How a scan goes on after a step. -/
inductive Verdict (σ : Type) where
  /-- With the next character, in a state. -/
  | goto (state : σ)
  /-- With the next character, in the state of a name. -/
  | gotoNamed (name : String)
  /-- The scan is over, before the current character. -/
  | finish
  /-- The current character cannot be scanned. -/
  | fail (reason : String)

end Reckoner
