import Reckoner.Expression.Postorder

/-!
# Formulas and how they are written

A formula is the tree that an infix expression stands for. Its symbols are left open: tokens are
one kind of symbol, the words of a text another. All that matters is which part each symbol can
play (`Roles`).

`Renders e b ts` says that the symbols `ts` write the formula `e`: brackets stand where precedence
and grouping to the left ask for them, and may stand anywhere else, any number of times; `b` tells
whether the whole is enclosed in brackets of its own.
-/
namespace Reckoner

/-- The tree of an infix expression. -/
inductive Formula (α : Type) where
  | operand (a : α)
  | binary (op : α) (left right : Formula α)
  /-- A formula that is put in brackets for its own sake. -/
  | group (inner : Formula α)
  /-- A function of any number of arguments. -/
  | call (f : α) (args : List (Formula α))

/-- The parts that symbols can play in writing. -/
class Roles (α : Type) where
  isOperand : α → Bool
  /-- How tightly an operator binds; nothing else does. -/
  precedence? : α → Option Nat
  isFunction : α → Bool
  opens : α → Bool
  closes : α → Bool
  separates : α → Bool

namespace Formula

variable {α β : Type}

mutual

/-- The symbols of a formula in postorder: an operator after its operands, a function after its
arguments. Groups leave no trace. -/
def postorder : Formula α → List α
  | .operand a => [a]
  | .binary op l r => l.postorder ++ r.postorder ++ [op]
  | .group e => e.postorder
  | .call f args => postorderAll args ++ [f]
termination_by structural e => e

/-- The symbols of formulas in postorder, one formula after the other. -/
def postorderAll : List (Formula α) → List α
  | [] => []
  | e :: es => e.postorder ++ postorderAll es
termination_by structural es => es

end

mutual

def map (f : α → β) : Formula α → Formula β
  | .operand a => .operand (f a)
  | .binary op l r => .binary (f op) (l.map f) (r.map f)
  | .group e => .group (e.map f)
  | .call g args => .call (f g) (mapAll f args)
termination_by structural e => e

def mapAll (f : α → β) : List (Formula α) → List (Formula β)
  | [] => []
  | e :: es => e.map f :: mapAll f es
termination_by structural es => es

end

/-- Operands joined by operators, grouped to the left. -/
def leftChain (first : Formula α) (rest : List (α × Formula α)) : Formula α :=
  rest.foldl (fun l x => .binary x.1 l x.2) first

mutual

theorem postorder_map (f : α → β) : ∀ e : Formula α, (e.map f).postorder = e.postorder.map f
  | .operand a => by simp [map, postorder]
  | .binary op l r => by simp [map, postorder, postorder_map f l, postorder_map f r]
  | .group e => by simp [map, postorder, postorder_map f e]
  | .call g args => by simp [map, postorder, postorderAll_map f args]

theorem postorderAll_map (f : α → β) :
    ∀ es : List (Formula α), postorderAll (mapAll f es) = (postorderAll es).map f
  | [] => rfl
  | e :: es => by simp [mapAll, postorderAll, postorder_map f e, postorderAll_map f es]

end

variable [Roles α] [Roles β]

/-- The precedence of the operator at the root. -/
def rootPrecedence? : Formula α → Option Nat
  | .binary op _ _ => Roles.precedence? op
  | _ => none

mutual

/-- The symbols `ts` write a formula, in brackets of its own or not. A left operand that binds less
tightly than its operator is bracketed, and so is a right operand that binds no more tightly. -/
inductive Renders : Formula α → (bracketed : Bool) → (ts : List α) → Prop
  | operand {a : α} (ha : Roles.isOperand a) : Renders (.operand a) false [a]
  | binary {op : α} {l r : Formula α} {p : Nat} {bl br : Bool} {ls rs : List α}
      (hp : Roles.precedence? op = some p) (hl : Renders l bl ls) (hr : Renders r br rs)
      (left : ∀ q, l.rootPrecedence? = some q → q < p → bl = true)
      (right : ∀ q, r.rootPrecedence? = some q → q ≤ p → br = true) :
      Renders (.binary op l r) false (ls ++ op :: rs)
  | group {o c : α} {e : Formula α} {b : Bool} {ts : List α} (ho : Roles.opens o)
      (hc : Roles.closes c) (he : Renders e b ts) : Renders (.group e) true (o :: (ts ++ [c]))
  | call {f o c : α} {args : List (Formula α)} {ts : List α} (hf : Roles.isFunction f)
      (ho : Roles.opens o) (hc : Roles.closes c) (hargs : RendersArgs args ts) :
      Renders (.call f args) false (f :: o :: (ts ++ [c]))
  | bracket {o c : α} {e : Formula α} {b : Bool} {ts : List α} (ho : Roles.opens o)
      (hc : Roles.closes c) (he : Renders e b ts) : Renders e true (o :: (ts ++ [c]))

/-- The symbols `ts` write the arguments of a call, with separators between them. -/
inductive RendersArgs : List (Formula α) → (ts : List α) → Prop
  | nil : RendersArgs [] []
  | one {e : Formula α} {b : Bool} {ts : List α} (he : Renders e b ts) : RendersArgs [e] ts
  | cons {s : α} {e e' : Formula α} {es : List (Formula α)} {b : Bool} {ts us : List α}
      (he : Renders e b ts) (hs : Roles.separates s) (hes : RendersArgs (e' :: es) us) :
      RendersArgs (e :: e' :: es) (ts ++ s :: us)

end

/-- The symbols `ts` go on after an operand with operators of precedence `p` and their right
operands. -/
inductive RendersChain (p : Nat) : List (α × Formula α) → (ts : List α) → Prop
  | nil : RendersChain p [] []
  | cons {op : α} {e : Formula α} {b : Bool} {rest : List (α × Formula α)} {ts us : List α}
      (hp : Roles.precedence? op = some p) (he : Renders e b ts)
      (right : ∀ q, e.rootPrecedence? = some q → q ≤ p → b = true)
      (hrest : RendersChain p rest us) : RendersChain p ((op, e) :: rest) (op :: (ts ++ us))

/-- A chain of operators of one precedence needs no brackets to be grouped to the left. -/
theorem Renders.leftChain {p : Nat} {first : Formula α} {b : Bool} {ts us : List α}
    {rest : List (α × Formula α)} (hfirst : Renders first b ts)
    (left : ∀ q, first.rootPrecedence? = some q → q < p → b = true)
    (hrest : RendersChain p rest us) : ∃ b, Renders (first.leftChain rest) b (ts ++ us) := by
  induction hrest generalizing first b ts with
  | nil => exact ⟨b, by simpa [Formula.leftChain] using hfirst⟩
  | @cons op e be rest es us hp he right _ ih =>
    have hnode : Renders (.binary op first e) false (ts ++ op :: es) :=
      .binary hp hfirst he left right
    obtain ⟨b', h⟩ := ih hnode fun q hq hlt => by
      rw [rootPrecedence?, hp] at hq
      cases hq
      omega
    exact ⟨b', by simpa [Formula.leftChain] using h⟩

/-! ## Replacing symbols -/

/-- A replacement of symbols under which each keeps its part. -/
structure KeepsRoles (f : α → β) : Prop where
  isOperand : ∀ a, Roles.isOperand (f a) = Roles.isOperand a
  precedence? : ∀ a, Roles.precedence? (f a) = Roles.precedence? a
  isFunction : ∀ a, Roles.isFunction (f a) = Roles.isFunction a
  opens : ∀ a, Roles.opens (f a) = Roles.opens a
  closes : ∀ a, Roles.closes (f a) = Roles.closes a
  separates : ∀ a, Roles.separates (f a) = Roles.separates a

theorem KeepsRoles.rootPrecedence?_map {f : α → β} (hf : KeepsRoles f) (e : Formula α) :
    (e.map f).rootPrecedence? = e.rootPrecedence? := by
  cases e with
  | binary op l r => exact hf.precedence? op
  | operand a => rfl
  | group e => rfl
  | call g args => rfl

mutual

theorem Renders.map {f : α → β} (hf : KeepsRoles f) :
    ∀ {e : Formula α} {b : Bool} {ts : List α}, Renders e b ts → Renders (e.map f) b (ts.map f)
  | _, _, _, .operand ha => .operand (by rwa [hf.isOperand])
  | _, _, _, .binary hp hl hr left right => by
    rw [List.map_append]
    refine .binary (by rw [hf.precedence?]; exact hp) (hl.map hf) (hr.map hf) ?_ ?_
    · rwa [hf.rootPrecedence?_map]
    · rwa [hf.rootPrecedence?_map]
  | _, _, _, .group ho hc he => by
    rw [List.map_cons, List.map_append]
    exact .group (by rwa [hf.opens]) (by rwa [hf.closes]) (he.map hf)
  | _, _, _, .call hg ho hc hargs => by
    rw [List.map_cons, List.map_cons, List.map_append]
    exact .call (by rwa [hf.isFunction]) (by rwa [hf.opens]) (by rwa [hf.closes]) (hargs.map hf)
  | _, _, _, .bracket ho hc he => by
    rw [List.map_cons, List.map_append]
    exact .bracket (by rwa [hf.opens]) (by rwa [hf.closes]) (he.map hf)

theorem RendersArgs.map {f : α → β} (hf : KeepsRoles f) :
    ∀ {es : List (Formula α)} {ts : List α}, RendersArgs es ts → RendersArgs (mapAll f es) (ts.map f)
  | _, _, .nil => .nil
  | _, _, .one he => .one (he.map hf)
  | _, _, .cons he hs hes => by
    rw [List.map_append, List.map_cons]
    exact .cons (he.map hf) (by rwa [hf.separates]) (hes.map hf)

end

end Formula

end Reckoner
