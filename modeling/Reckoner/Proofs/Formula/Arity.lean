import Mathlib.Algebra.Order.BigOperators.Group.List
import Mathlib.Algebra.Order.Ring.Int
import Reckoner.Proofs.Formula.Basic

/-!
# Arities

A call may have more or fewer arguments than its function takes. In postorder the arguments of all
calls lie on one stack, so that what one call has too many another may take (`Cancels`). How many
values are on the stack at the end depends on the calls' arguments all told only (`net_postorder`).
-/
namespace Reckoner.Formula

variable {α : Type}

/-! ## Calls -/

mutual

/-- The calls in a formula: the function and how many arguments it is given. -/
def calls : Formula α → List (α × Nat)
  | .operand _ => []
  | .binary _ l r => l.calls ++ r.calls
  | .group e => e.calls
  | .call f args => callsAll args ++ [(f, args.length)]
termination_by structural e => e

def callsAll : List (Formula α) → List (α × Nat)
  | [] => []
  | e :: es => e.calls ++ callsAll es
termination_by structural es => es

end

variable {arity : α → Nat}

/-- How many arguments too many calls have, all told; missing ones count against them. -/
def excess (arity : α → Nat) (calls : List (α × Nat)) : Int :=
  (calls.map fun c => (c.2 : Int) - arity c.1).sum

/-- Calls that are wrong, but not all told, have too many arguments here and too few there. -/
theorem exists_more_and_fewer {calls : List (α × Nat)} (h : excess arity calls = 0)
    (hwrong : ∃ c ∈ calls, c.2 ≠ arity c.1) :
    (∃ c ∈ calls, arity c.1 < c.2) ∧ ∃ c ∈ calls, c.2 < arity c.1 := by
  obtain ⟨c, hc, hne⟩ := hwrong
  rw [excess] at h
  -- if all wrong calls were wrong the same way, the excess would have their sign
  constructor
  · by_contra! hnone
    have hlt := List.sum_lt_sum (l := calls) (fun c => (c.2 : Int) - arity c.1) (fun _ => 0)
      (fun d hd => by have := hnone d hd; omega) ⟨c, hc, by have := hnone c hc; omega⟩
    simp [h] at hlt
  · by_contra! hnone
    have hlt := List.sum_lt_sum (l := calls) (fun _ => 0) (fun c => (c.2 : Int) - arity c.1)
      (fun d hd => by have := hnone d hd; omega) ⟨c, hc, by have := hnone c hc; omega⟩
    simp [h] at hlt

/-! ## Depths -/

/-- How many values are on a stack after symbols in postorder, each of which takes as many as its arity
says and leaves one; none if a symbol lacks operands. -/
def depthAfter (arity : α → Nat) : Nat → List α → Option Nat
  | depth, [] => some depth
  | depth, a :: as => if arity a ≤ depth then depthAfter arity (depth - arity a + 1) as else none

/-- Do the calls of a formula make up for each other? They have no arguments too many all told, and in
postorder no symbol lacks operands. -/
def Cancels (arity : α → Nat) (e : Formula α) : Prop :=
  excess arity e.calls = 0 ∧ (depthAfter arity 0 e.postorder).isSome

/-- How many values more there are on a stack after symbols in postorder than before. -/
def net (arity : α → Nat) (as : List α) : Int := (as.map fun a => 1 - (arity a : Int)).sum

theorem net_append (as bs : List α) : net arity (as ++ bs) = net arity as + net arity bs := by
  simp [net]

theorem net_singleton (a : α) : net arity [a] = 1 - (arity a : Int) := by
  simp [net]

theorem excess_append (cs ds : List (α × Nat)) :
    excess arity (cs ++ ds) = excess arity cs + excess arity ds := by
  simp [excess]

theorem excess_singleton (f : α) (k : Nat) : excess arity [(f, k)] = (k : Int) - arity f := by
  simp [excess]

theorem eq_of_depthAfter : ∀ {as : List α} {depth depth' : Nat},
    depthAfter arity depth as = some depth' → (depth' : Int) = depth + net arity as
  | [], depth, depth', h => by
    cases h
    simp [net]
  | a :: as, depth, depth', h => by
    simp only [depthAfter] at h
    by_cases hle : arity a ≤ depth
    · rw [if_pos hle] at h
      have ih := eq_of_depthAfter h
      have hnet : net arity (a :: as) = 1 - (arity a : Int) + net arity as := by simp [net]
      omega
    · rw [if_neg hle] at h
      cases h

/-- Do operands take nothing, and operators two operands? -/
structure FitsRoles [Roles α] (arity : α → Nat) : Prop where
  operand {a : α} (h : Roles.isOperand a = true) : arity a = 0
  operator {a : α} {p : Nat} (h : Roles.precedence? a = some p) : arity a = 2

variable [Roles α]

mutual

/-- A formula in postorder leaves one value, and those that its calls have too many. -/
theorem net_postorder (h : FitsRoles arity) : ∀ {e : Formula α} {b : Bool} {ts : List α},
    Renders e b ts → net arity e.postorder = 1 + excess arity e.calls
  | _, _, _, .operand ha => by simp [postorder, calls, net, excess, h.operand ha]
  | _, _, _, .binary hp hl hr _ _ => by
    rw [postorder, calls, net_append, net_append, excess_append, net_postorder h hl, net_postorder h hr,
      net_singleton, h.operator hp]
    omega
  | _, _, _, .group _ _ he => by
    rw [postorder, calls]
    exact net_postorder h he
  | _, _, _, .call _ _ _ hargs => by
    rw [postorder, calls, net_append, excess_append, net_postorderAll h hargs, net_singleton,
      excess_singleton]
    omega
  | _, _, _, .bracket _ _ he => net_postorder h he

theorem net_postorderAll (h : FitsRoles arity) : ∀ {es : List (Formula α)} {ts : List α},
    RendersArgs es ts → net arity (postorderAll es) = es.length + excess arity (callsAll es)
  | _, _, .nil => by simp [postorderAll, callsAll, net, excess]
  | _, _, .one he => by
    rw [postorderAll, callsAll, net_append, excess_append, net_postorder h he]
    simp [postorderAll, callsAll, net, excess]
  | _, _, .cons he _ hes => by
    rw [postorderAll, callsAll, net_append, excess_append, net_postorder h he, net_postorderAll h hes]
    simp only [List.length_cons]
    omega

end

end Reckoner.Formula
