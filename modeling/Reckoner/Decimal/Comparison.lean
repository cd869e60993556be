import Reckoner.Decimal.Basic

/-!
# Comparisons

Six ways to compare two numbers. All of them are read off the order of the numbers by value.
-/
namespace Reckoner.Decimal

inductive Comparison where
  | eq
  | ne
  | lt
  | le
  | gt
  | ge
  deriving DecidableEq, Repr

/-- Is the comparison met by numbers that are in this order? -/
def Comparison.admits : Comparison → Ordering → Bool
  | .eq => Ordering.isEq
  | .ne => Ordering.isNe
  | .lt => Ordering.isLT
  | .le => Ordering.isLE
  | .gt => Ordering.isGT
  | .ge => Ordering.isGE

def Comparison.holds (r : Comparison) (a b : Decimal) : Bool := r.admits (a.cmp b)

end Reckoner.Decimal
