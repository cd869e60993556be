import Reckoner.Decimal.Comparison
import Reckoner.Proofs.Decimal.Value

/-!
# Decimals as an ordered ring

Representations of one number are equal without being the same, so that the laws of arithmetic hold up
to equality. They are those of the rational numbers: the exact operations compute on the numbers that
decimals stand for, and every comparison is the one of these numbers (`holds_iff`). Main theorem
`ordered_subring`.
-/
namespace Reckoner.Decimal

variable {a b c : Decimal}

/-! ## Comparisons -/

/-- The relation of rational numbers that a comparison is named for. -/
def Comparison.Rel : Comparison → ℚ → ℚ → Prop
  | .eq => (· = ·)
  | .ne => (· ≠ ·)
  | .lt => (· < ·)
  | .le => (· ≤ ·)
  | .gt => (· > ·)
  | .ge => (· ≥ ·)

/-- A comparison holds of decimals if it holds of the numbers that they stand for. -/
theorem holds_iff (r : Comparison) (a b : Decimal) : r.holds a b = true ↔ r.Rel a.value b.value := by
  rw [Comparison.holds, cmp_eq_compare]
  rcases lt_trichotomy a.value b.value with h | h | h
  · rw [compare_lt_iff_lt.2 h]
    cases r <;> simp [Comparison.admits, Comparison.Rel, h, h.le, h.ne, h.not_gt, h.not_ge]
  · rw [compare_eq_iff_eq.2 h]
    cases r <;> simp [Comparison.admits, Comparison.Rel, h]
  · rw [compare_gt_iff_gt.2 h]
    cases r <;> simp [Comparison.admits, Comparison.Rel, h, h.le, h.ne', h.not_gt, h.not_ge]

/-- Decimals that stand for one number are equal. -/
theorem holds_eq (h : a.value = b.value) : Comparison.eq.holds a b = true := (holds_iff .eq a b).2 h

/-- Comparisons of pairs of numbers that are in the same relations have the same answer. -/
theorem holds_congr {r : Comparison} {a' b' : Decimal}
    (h : r.Rel a.value b.value ↔ r.Rel a'.value b'.value) : r.holds a b = r.holds a' b' := by
  rw [Bool.eq_iff_iff, holds_iff, holds_iff, h]

/-- All comparisons but `ne` can be chained. -/
theorem Comparison.Rel.trans {r : Comparison} (hr : r ≠ .ne) {x y z : ℚ} (hxy : r.Rel x y)
    (hyz : r.Rel y z) : r.Rel x z := by
  cases r with
  | eq => exact Eq.trans hxy hyz
  | ne => exact absurd rfl hr
  | lt => exact lt_trans hxy hyz
  | le => exact le_trans hxy hyz
  | gt => exact gt_trans hxy hyz
  | ge => exact ge_trans hxy hyz

theorem Comparison.rel_add (r : Comparison) (x y z : ℚ) : r.Rel (x + z) (y + z) ↔ r.Rel x y := by
  cases r <;> simp [Comparison.Rel]

theorem Comparison.rel_mul (r : Comparison) (x y : ℚ) {z : ℚ} (hz : 0 < z) :
    r.Rel (x * z) (y * z) ↔ r.Rel x y := by
  cases r <;> simp [Comparison.Rel, hz, hz.ne']

/-! ## The ring -/

theorem value_zero : value ⟨0, 0⟩ = 0 := by simp [value]

theorem value_one : value ⟨1, 0⟩ = 1 := by simp [value]

/-- The exact operations compute on the numbers that decimals stand for, and their results have the
places of the finer operand or, for a product, of both operands together. -/
structure Exact (a b : Decimal) : Prop where
  zero : value ⟨0, 0⟩ = 0
  one : value ⟨1, 0⟩ = 1
  add : (a.add b).value = a.value + b.value
  sub : (a.sub b).value = a.value - b.value
  mul : (a.mul b).value = a.value * b.value
  neg : a.neg.value = -a.value
  places_add : (a.add b).places = Max.max a.places b.places
  places_sub : (a.sub b).places = Max.max a.places b.places
  places_mul : (a.mul b).places = a.places + b.places
  places_neg : a.neg.places = a.places

theorem exact (a b : Decimal) : Exact a b where
  zero := value_zero
  one := value_one
  add := value_add a b
  sub := value_sub a b
  mul := value_mul a b
  neg := value_neg a
  places_add := rfl
  places_sub := rfl
  places_mul := rfl
  places_neg := rfl

/-- The laws of a commutative ring, up to equality. -/
structure RingLaws (a b c : Decimal) : Prop where
  add_assoc : Comparison.eq.holds ((a.add b).add c) (a.add (b.add c))
  add_comm : Comparison.eq.holds (a.add b) (b.add a)
  add_zero : Comparison.eq.holds (a.add ⟨0, 0⟩) a
  add_neg : Comparison.eq.holds (a.add a.neg) ⟨0, 0⟩
  sub_eq : Comparison.eq.holds (a.sub b) (a.add b.neg)
  mul_assoc : Comparison.eq.holds ((a.mul b).mul c) (a.mul (b.mul c))
  mul_comm : Comparison.eq.holds (a.mul b) (b.mul a)
  mul_one : Comparison.eq.holds (a.mul ⟨1, 0⟩) a
  mul_add : Comparison.eq.holds (a.mul (b.add c)) ((a.mul b).add (a.mul c))

theorem ringLaws (a b c : Decimal) : RingLaws a b c where
  add_assoc := holds_eq (by simp only [value_add]; ring)
  add_comm := holds_eq (by simp only [value_add]; ring)
  add_zero := holds_eq (by rw [value_add, value_zero, add_zero])
  add_neg := holds_eq (by rw [value_add, value_neg, value_zero, add_neg_cancel])
  sub_eq := holds_eq (by rw [value_sub, value_add, value_neg, sub_eq_add_neg])
  mul_assoc := holds_eq (by simp only [value_mul]; ring)
  mul_comm := holds_eq (by simp only [value_mul]; ring)
  mul_one := holds_eq (by rw [value_mul, value_one, mul_one])
  mul_add := holds_eq (by simp only [value_mul, value_add]; ring)

/-! ## The order -/

/-- The comparisons are those of the rational numbers. Equality and the strict order determine the
others, and just one of the two holds, in one direction. Comparisons can be chained, have the same answer
for equal numbers, and are kept by sums and by products with a positive number. -/
structure OrderLaws (a b c : Decimal) : Prop where
  agree : ∀ r : Comparison, r.holds a b ↔ r.Rel a.value b.value
  ne_eq : Comparison.ne.holds a b = !Comparison.eq.holds a b
  le_eq : Comparison.le.holds a b = (Comparison.lt.holds a b || Comparison.eq.holds a b)
  gt_eq : Comparison.gt.holds a b = (!Comparison.lt.holds a b && Comparison.ne.holds a b)
  ge_eq : Comparison.ge.holds a b = !Comparison.lt.holds a b
  trichotomy :
    Comparison.lt.holds a b ∧ ¬ Comparison.eq.holds a b ∧ ¬ Comparison.gt.holds a b ∨
    ¬ Comparison.lt.holds a b ∧ Comparison.eq.holds a b ∧ ¬ Comparison.gt.holds a b ∨
    ¬ Comparison.lt.holds a b ∧ ¬ Comparison.eq.holds a b ∧ Comparison.gt.holds a b
  /-- Numbers that both differ from a third one may be equal, so that `ne` cannot be chained. -/
  trans : ∀ r : Comparison, r ≠ .ne → r.holds a b → r.holds b c → r.holds a c
  equal : Comparison.eq.holds b c → ∀ r : Comparison, r.holds a b = r.holds a c
  add : ∀ r : Comparison, r.holds (a.add c) (b.add c) = r.holds a b
  mul : Comparison.gt.holds c ⟨0, 0⟩ → ∀ r : Comparison, r.holds (a.mul c) (b.mul c) = r.holds a b

theorem orderLaws (a b c : Decimal) : OrderLaws a b c where
  agree r := holds_iff r a b
  ne_eq := by simp only [Comparison.holds]; cases a.cmp b <;> rfl
  le_eq := by simp only [Comparison.holds]; cases a.cmp b <;> rfl
  gt_eq := by simp only [Comparison.holds]; cases a.cmp b <;> rfl
  ge_eq := by simp only [Comparison.holds]; cases a.cmp b <;> rfl
  trichotomy := by
    simp only [Comparison.holds]
    cases a.cmp b <;> decide
  trans r hr hab hbc := by
    rw [holds_iff] at hab hbc ⊢
    exact hab.trans hr hbc
  equal hbc r := by
    have hvalue : b.value = c.value := (holds_iff .eq b c).1 hbc
    exact holds_congr (by rw [hvalue])
  add r := by
    refine holds_congr ?_
    rw [value_add, value_add, r.rel_add]
  mul hc r := by
    rw [holds_iff, value_zero] at hc
    refine holds_congr ?_
    rw [value_mul, value_mul, r.rel_mul _ _ hc]

/-! ## The maximum -/

/-- The maximum is one of its operands, the least upper bound of both, and the left one if they are
equal; up to equality it is associative and commutative, and sums distribute over it. -/
structure MaxLaws (a b c : Decimal) : Prop where
  chosen : a.max b = a ∨ a.max b = b
  tie : Comparison.eq.holds a b → a.max b = a
  le_left : Comparison.le.holds a (a.max b)
  le_right : Comparison.le.holds b (a.max b)
  least : Comparison.le.holds a c → Comparison.le.holds b c → Comparison.le.holds (a.max b) c
  assoc : Comparison.eq.holds ((a.max b).max c) (a.max (b.max c))
  comm : Comparison.eq.holds (a.max b) (b.max a)
  add : Comparison.eq.holds (c.add (a.max b)) ((c.add a).max (c.add b))

theorem max_eq (a b : Decimal) : a.max b = if Comparison.gt.holds b a then b else a := rfl

theorem maxLaws (a b c : Decimal) : MaxLaws a b c where
  chosen := by
    rw [max_eq]
    split
    · exact .inr rfl
    · exact .inl rfl
  tie h := by
    rw [max_eq, if_neg]
    rw [holds_iff] at h ⊢
    exact not_lt.2 h.ge
  le_left := by
    rw [holds_iff, value_max]
    exact le_max_left _ _
  le_right := by
    rw [holds_iff, value_max]
    exact le_max_right _ _
  least ha hb := by
    rw [holds_iff] at ha hb
    rw [holds_iff, value_max]
    exact max_le ha hb
  assoc := holds_eq (by simp only [value_max, max_assoc])
  comm := holds_eq (by simp only [value_max, max_comm])
  add := holds_eq (by simp only [value_add, value_max, add_max])

/-- **The decimals are an ordered ring of rational numbers.** The exact operations compute on the numbers
that decimals stand for, with the places that these need, so that the laws of a commutative ring hold up to
equality; the comparisons are those of the rational numbers and are kept by sums and by products with a
positive number; and the maximum is the left operand, or the right one if that is greater. -/
theorem ordered_subring (a b c : Decimal) :
    Exact a b ∧ RingLaws a b c ∧ OrderLaws a b c ∧ MaxLaws a b c :=
  ⟨exact a b, ringLaws a b c, orderLaws a b c, maxLaws a b c⟩

/-- The left one of two equal operands is the maximum, in its own representation; halving them changes no
comparison. -/
theorem ordered_subring_two :
    let a : Decimal := ⟨20, 1⟩
    let b : Decimal := ⟨2, 0⟩
    let c : Decimal := ⟨5, 1⟩
    a ≠ b ∧ Comparison.eq.holds a b ∧ a.max b = a ∧ Comparison.gt.holds c ⟨0, 0⟩ ∧
      ∀ r : Comparison, r.holds (a.mul c) (b.mul c) = r.holds a b := by
  intro a b c
  have heq : Comparison.eq.holds a b := by decide
  have hpos : Comparison.gt.holds c ⟨0, 0⟩ := by decide
  obtain ⟨-, -, horder, hmax⟩ := ordered_subring a b c
  exact ⟨by decide, heq, hmax.tie heq, hpos, horder.mul hpos⟩

end Reckoner.Decimal
