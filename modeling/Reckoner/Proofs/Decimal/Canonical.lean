import Reckoner.Proofs.Decimal.Order

/-!
# One representative of each value

The canonical form of a number is what is left when no trailing zero can be dropped any more. Dropping one
leaves the value as it is (`Drop.value_eq`), and of the representations of a value only one has nothing to
drop (`Canonical.eq_of_value_eq`), so that canonical forms can be hashed: equal numbers, and no others, have
the same one. Main theorem `canonical_represents`.
-/
namespace Reckoner.Decimal

/-! ## Dropping zeros -/

/-- A trailing zero of the magnitude is dropped, while there are places left. -/
inductive Drop : Decimal → Decimal → Prop
  | zero {m : Int} (p : Nat) (h : m % 10 = 0) : Drop ⟨m, p + 1⟩ ⟨m / 10, p⟩

/-- No zero can be dropped. -/
def Canonical (a : Decimal) : Prop := ∀ b, ¬ Drop a b

variable {a b : Decimal}

theorem Drop.places_eq (h : Drop a b) : b.places + 1 = a.places := by
  cases h
  rfl

theorem Drop.value_eq (h : Drop a b) : b.value = a.value := by
  cases h with
  | @zero m p hm =>
    have hsplit : m = m / 10 * 10 := by omega
    have hcast : (m : ℚ) = ((m / 10 : Int) : ℚ) * 10 := by exact_mod_cast hsplit
    simp only [value, pow_succ]
    rw [hcast]
    field_simp

/-- There is an end to dropping zeros, also for the magnitude zero: the places run out. -/
theorem wellFounded_drop : WellFounded fun b a => Drop a b := by
  refine Subrelation.wf (r := InvImage (· < ·) places) ?_ (InvImage.wf places Nat.lt_wfRel.wf)
  intro b a h
  have := h.places_eq
  change b.places < a.places
  omega

theorem canonical_iff : Canonical a ↔ a.places = 0 ∨ a.magnitude % 10 ≠ 0 := by
  obtain ⟨m, p⟩ := a
  constructor
  · intro h
    cases p with
    | zero => exact .inl rfl
    | succ p => exact .inr fun hm => h _ (.zero p hm)
  · rintro h b hdrop
    cases hdrop with
    | zero p hm => simp [hm] at h

theorem drops_stripZeros (m : Int) (p : Nat) : Relation.ReflTransGen Drop ⟨m, p⟩ (stripZeros m p) := by
  induction p generalizing m with
  | zero => exact .refl
  | succ p ih =>
    unfold stripZeros
    split
    · rename_i hm
      exact .head (.zero p hm) (ih (m / 10))
    · exact .refl

theorem canonical_stripZeros (m : Int) (p : Nat) : Canonical (stripZeros m p) := by
  induction p generalizing m with
  | zero => exact canonical_iff.2 (.inl rfl)
  | succ p ih =>
    unfold stripZeros
    split
    · exact ih (m / 10)
    · rename_i hm
      exact canonical_iff.2 (.inr hm)

theorem drops_canonical (a : Decimal) : Relation.ReflTransGen Drop a a.canonical :=
  drops_stripZeros a.magnitude a.places

theorem canonical_canonical (a : Decimal) : Canonical a.canonical :=
  canonical_stripZeros a.magnitude a.places

theorem value_eq_of_drops (h : Relation.ReflTransGen Drop a b) : b.value = a.value := by
  induction h with
  | refl => rfl
  | tail _ hdrop ih => rw [hdrop.value_eq, ih]

theorem value_canonical (a : Decimal) : a.canonical.value = a.value :=
  value_eq_of_drops (drops_canonical a)

/-! ## Uniqueness -/

/-- With more places, a magnitude ends in zeros. -/
theorem magnitudeAt_emod {p : Nat} (hp : a.places < p) : a.magnitudeAt p % 10 = 0 := by
  obtain ⟨k, hk⟩ : ∃ k, p - a.places = k + 1 := ⟨p - a.places - 1, by omega⟩
  have hpow : pow10 (k + 1) = pow10 k * 10 := Nat.pow_succ 10 k
  rw [magnitudeAt, hk, hpow]
  push_cast
  rw [← mul_assoc]
  exact Int.mul_emod_left _ _

theorem magnitudeAt_places (a : Decimal) : a.magnitudeAt a.places = a.magnitude := by
  rw [magnitudeAt, Nat.sub_self]
  exact mul_one _

theorem Canonical.eq_of_places_le (hb : Canonical b) (h : a.value = b.value) (hle : a.places ≤ b.places) :
    a = b := by
  have hmagnitude : a.magnitudeAt b.places = b.magnitude := by
    rw [← magnitudeAt_places b, ← Int.cast_inj (α := ℚ), cast_magnitudeAt hle, cast_magnitudeAt le_rfl, h]
  have hplaces : a.places = b.places := by
    by_contra hne
    have hzero := magnitudeAt_emod (a := a) (p := b.places) (by omega)
    rw [hmagnitude] at hzero
    rcases canonical_iff.1 hb with h0 | h10
    · omega
    · exact h10 hzero
  have hsame : a.magnitude = b.magnitude := by
    rw [← hplaces, magnitudeAt_places] at hmagnitude
    exact hmagnitude
  cases a
  cases b
  simp_all

/-- A value has one canonical representation. -/
theorem Canonical.eq_of_value_eq (ha : Canonical a) (hb : Canonical b) (h : a.value = b.value) : a = b := by
  rcases le_total a.places b.places with hle | hle
  · exact hb.eq_of_places_le h hle
  · exact (ha.eq_of_places_le h.symm hle).symm

theorem canonical_eq_iff (a b : Decimal) : a.canonical = b.canonical ↔ a.value = b.value := by
  constructor
  · intro h
    rw [← value_canonical a, ← value_canonical b, h]
  · intro h
    refine (canonical_canonical a).eq_of_value_eq (canonical_canonical b) ?_
    rw [value_canonical, value_canonical, h]

/-! ## Numbers as keys -/

section Keys
variable {α κ : Type} [DecidableEq κ] (hash : Decimal → κ) (number : α → Decimal)

/-- Stores an entry in a dictionary unless its number is a key already. A key is looked for among those
whose canonical form has the same hash, and compared there by value. -/
def insertKey (kept : List α) (e : α) : List α :=
  if kept.any fun k => hash (number k).canonical = hash (number e).canonical &&
    Comparison.eq.holds (number k) (number e) then kept else kept ++ [e]

/-- The entries of a dictionary after storing a list. -/
def insertKeys (entries : List α) : List α := entries.foldl (insertKey hash number) []

/-- Whatever the hash, equal numbers are found and others are not. -/
theorem insertKeys_eq_distinctBy (entries : List α) :
    insertKeys hash number entries = distinctBy number entries := by
  have hfound (x y : Decimal) :
      (decide (hash x.canonical = hash y.canonical) && Comparison.eq.holds x y) =
        decide (x.canonical = y.canonical) := by
    rw [Bool.eq_iff_iff, Bool.and_eq_true, decide_eq_true_eq, decide_eq_true_eq, holds_iff]
    constructor
    · rintro ⟨-, heq⟩
      exact (canonical_eq_iff x y).2 heq
    · intro heq
      exact ⟨by rw [heq], (canonical_eq_iff x y).1 heq⟩
  have hstep : insertKey hash number = fun kept e =>
      if kept.any fun k => (number k).canonical = (number e).canonical then kept else kept ++ [e] := by
    funext kept e
    simp only [insertKey, hfound]
  rw [insertKeys, hstep, distinctBy]

theorem distinctBy_concat (entries : List α) (e : α) :
    distinctBy number (entries ++ [e]) =
      if ∃ k ∈ distinctBy number entries, (number k).value = (number e).value then distinctBy number entries
      else distinctBy number entries ++ [e] := by
  have hany : ((distinctBy number entries).any fun k => (number k).canonical = (number e).canonical) = true ↔
      ∃ k ∈ distinctBy number entries, (number k).value = (number e).value := by
    simp only [List.any_eq_true, decide_eq_true_eq, canonical_eq_iff]
  rw [distinctBy, List.foldl_append]
  exact if_congr hany rfl rfl

theorem distinctBy_sublist (entries : List α) : (distinctBy number entries).Sublist entries := by
  induction entries using List.reverseRecOn with
  | nil => exact .slnil
  | append_singleton entries e ih =>
    rw [distinctBy_concat]
    split
    · exact ih.trans (List.sublist_append_left _ _)
    · exact ih.append (.refl _)

/-- Of each value that occurs the first entry is kept, and no other. -/
theorem filter_distinctBy (entries : List α) (v : ℚ) :
    (distinctBy number entries).filter (fun e => (number e).value = v) =
      (entries.find? fun e => (number e).value = v).toList := by
  induction entries using List.reverseRecOn with
  | nil => rfl
  | append_singleton entries e ih =>
    rw [distinctBy_concat, List.find?_append]
    by_cases hv : (number e).value = v
    · subst hv
      cases hfind : entries.find? fun k => (number k).value = (number e).value with
      | none =>
        rw [hfind, Option.toList_none, List.filter_eq_nil_iff] at ih
        have hnew : ¬ ∃ k ∈ distinctBy number entries, (number k).value = (number e).value := by
          rintro ⟨k, hk, heq⟩
          exact ih k hk (decide_eq_true heq)
        rw [if_neg hnew, List.filter_append, List.filter_eq_nil_iff.2 ih]
        simp
      | some k =>
        rw [hfind, Option.toList_some] at ih
        have hmem : k ∈ (distinctBy number entries).filter fun k => (number k).value = (number e).value := by
          rw [ih]
          exact List.mem_singleton_self k
        obtain ⟨hk, heq⟩ := List.mem_filter.1 hmem
        rw [if_pos ⟨k, hk, of_decide_eq_true heq⟩, ih]
        rfl
    · split
      · rw [ih]
        simp [hv]
      · rw [List.filter_append, ih]
        simp [hv]

end Keys

/-- **Canonical forms represent values.** Dropping trailing zeros comes to an end, in the canonical form;
two numbers have the same canonical form if and only if they are equal; and so a dictionary that looks
numbers up by any hash of their canonical forms keeps, in order, one entry for each value: the first one. -/
theorem canonical_represents :
    (WellFounded fun b a => Drop a b) ∧
      (∀ a, Relation.ReflTransGen Drop a a.canonical ∧ ∀ b, ¬ Drop a.canonical b) ∧
      (∀ a b, a.canonical = b.canonical ↔ Comparison.eq.holds a b = true) ∧
      ∀ (α κ : Type) [DecidableEq κ] (hash : Decimal → κ) (number : α → Decimal) (entries : List α),
        insertKeys hash number entries = distinctBy number entries ∧
          (distinctBy number entries).Sublist entries ∧
          ∀ a : Decimal,
            (distinctBy number entries).filter (fun e => Comparison.eq.holds (number e) a) =
              (entries.find? fun e => Comparison.eq.holds (number e) a).toList := by
  refine ⟨wellFounded_drop, fun a => ⟨drops_canonical a, canonical_canonical a⟩, fun a b => ?_, ?_⟩
  · rw [canonical_eq_iff, holds_iff]
    rfl
  · intro α κ _ hash number entries
    refine ⟨insertKeys_eq_distinctBy hash number entries, distinctBy_sublist number entries, fun a => ?_⟩
    have hvalue : (fun e => Comparison.eq.holds (number e) a) =
        fun e => decide ((number e).value = a.value) := by
      funext e
      rw [Bool.eq_iff_iff, holds_iff, decide_eq_true_eq]
      rfl
    rw [hvalue]
    exact filter_distinctBy number entries a.value

/-- Zero loses all its places, and a negative number its zeros; 1.50 is found under 1.5. -/
example : canonical ⟨0, 4⟩ = ⟨0, 0⟩ ∧ canonical ⟨-1200, 3⟩ = ⟨-12, 1⟩ ∧
    distinctBy id [⟨15, 1⟩, ⟨2, 0⟩, ⟨150, 2⟩] = [⟨15, 1⟩, ⟨2, 0⟩] := by decide

end Reckoner.Decimal
