import Reckoner.Expression.Operation
import Reckoner.Token.Basic
import Reckoner.Text.Quoted

/-!
# From infix order to postorder

Operands go straight to the output; operators, functions and opening brackets wait on a stack. An
operator sends those before it that bind at least as tightly to the output, so that equal precedence
groups to the left. A closing bracket sends everything up to its opening one, and then the function
whose call it closes. A separator closes one argument and opens the next. Brackets and separators
only steer: none reaches the output.
-/
namespace Reckoner

inductive OrderError where
  /-- A token that is no part of an expression. -/
  | unexpected (kind : Option Kind) (text : List Char)
  /-- A closing bracket or a separator outside all groups. -/
  | unbalanced (text : List Char)
  /-- A group that is still open at the end. -/
  | unclosed (text : List Char)
  /-- An operator that is not in the table. -/
  | unranked (text : List Char)
  deriving DecidableEq, Repr

variable {V : Type}

/-- Does a token open a group? Opening brackets do, and so do separators: they open the next
argument. -/
def Token.opensGroup (t : Token V) : Bool :=
  match t.kind with
  | some .comma => true
  | some .bracket => !t.closing.getD false
  | _ => false

namespace Postorder

/-- The tokens that wait, the latest first, and the output, the latest first. -/
structure Tracks (V : Type) where
  waiting : List (Token V) := []
  output : List (Token V) := []

/-- How tightly an operator binds. -/
def precedence (t : Token V) : Except OrderError Nat :=
  match Operator.ofText? t.text with
  | some op => .ok op.precedence
  | none => .error (.unranked t.text)

/-- Sends waiting operators that bind at least as tightly as an incoming one to the output. -/
def yieldTo (incoming : Token V) : (waiting output : List (Token V)) → Except OrderError (Tracks V)
  | [], output => .ok ⟨[], output⟩
  | t :: waiting, output =>
    if t.kind = some .operator then do
      let mine ← precedence t
      let theirs ← precedence incoming
      if theirs ≤ mine then yieldTo incoming waiting (t :: output) else .ok ⟨t :: waiting, output⟩
    else .ok ⟨t :: waiting, output⟩

/-- Sends waiting tokens to the output up to the innermost opening one, which is dropped; none if no
group is open. -/
def closeGroup : (waiting output : List (Token V)) → Option (Tracks V)
  | [], _ => none
  | t :: waiting, output =>
    if t.opensGroup then some ⟨waiting, output⟩ else closeGroup waiting (t :: output)

/-- Sends the function whose call has just been closed to the output. -/
def closeCall (tracks : Tracks V) : Tracks V :=
  match tracks.waiting with
  | t :: waiting => if t.kind = some .function then ⟨waiting, t :: tracks.output⟩ else tracks
  | [] => tracks

/-- Takes one token in. -/
def step (tracks : Tracks V) (t : Token V) : Except OrderError (Tracks V) :=
  match t.kind with
  | some .number | some .variable => .ok { tracks with output := t :: tracks.output }
  | some .function => .ok { tracks with waiting := t :: tracks.waiting }
  | some .operator => do
    let tracks ← yieldTo t tracks.waiting tracks.output
    return { tracks with waiting := t :: tracks.waiting }
  | some .comma =>
    match closeGroup tracks.waiting tracks.output with
    | none => .error (.unbalanced t.text)
    | some tracks => .ok { tracks with waiting := t :: tracks.waiting }
  | some .bracket =>
    if t.closing.getD false then
      match closeGroup tracks.waiting tracks.output with
      | none => .error (.unbalanced t.text)
      | some tracks => .ok (closeCall tracks)
    else .ok { tracks with waiting := t :: tracks.waiting }
  | kind => .error (.unexpected kind t.text)

/-- Sends the rest of the waiting tokens to the output, which is complete then. -/
def drain : (waiting output : List (Token V)) → Except OrderError (List (Token V))
  | [], output => .ok output.reverse
  | t :: waiting, output =>
    if t.opensGroup then .error (.unclosed t.text) else drain waiting (t :: output)

def steps (tracks : Tracks V) : List (Token V) → Except OrderError (Tracks V)
  | [] => .ok tracks
  | t :: ts => do steps (← step tracks t) ts

/-- The tokens of an infix expression in postorder. -/
def ofInfix (tokens : List (Token V)) : Except OrderError (List (Token V)) := do
  let tracks ← steps {} tokens
  drain tracks.waiting tracks.output

end Postorder

end Reckoner
