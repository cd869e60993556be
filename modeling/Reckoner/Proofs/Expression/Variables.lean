import Reckoner.Proofs.Evaluation.Bindings
import Reckoner.Proofs.Expression.Reading
import Reckoner.Proofs.Postorder.Conservation

/-!
# What an evaluation reads

The names of an expression are those of the variables in its text, in the order of their first appearance
there (`firstAppearances_eraseDups`): operands keep their order on the way to postorder. An evaluation
asks for what they are bound to and nothing else (`evaluate_congr`), asks for all of them if it gets to
a value, and misses none if they are bound. Main theorem `variables_read`.
-/
namespace Reckoner

variable {V E : Type}

/-! ## First appearances -/

/-- The names are those among `all`, each listed once, where it appears first. -/
structure FirstAppearances {α : Type} [BEq α] (names all : List α) : Prop where
  nodup : names.Nodup
  mem_iff : ∀ n, n ∈ names ↔ n ∈ all
  ordered : names.Pairwise fun n m => all.idxOf n < all.idxOf m

section FirstAppearances

variable {α : Type} [BEq α] [LawfulBEq α]

/-- What comes first among what is kept comes first among all. -/
theorem idxOf_lt_of_filter {keep : α → Bool} {n m : α} (hn : keep n = true) (hm : keep m = true) :
    ∀ {as : List α}, (as.filter keep).idxOf n < (as.filter keep).idxOf m → as.idxOf n < as.idxOf m
  | [], h => h
  | a :: as, h => by
    have hnm : n ≠ m := fun heq => lt_irrefl _ (heq ▸ h)
    by_cases han : a = n
    · rw [List.idxOf_cons_eq as han, List.idxOf_cons_ne as (han ▸ hnm)]
      exact Nat.succ_pos _
    · by_cases ham : a = m
      · rw [List.filter_cons_of_pos (ham ▸ hm), List.idxOf_cons_eq _ ham] at h
        exact absurd h (Nat.not_lt_zero _)
      · rw [List.idxOf_cons_ne as han, List.idxOf_cons_ne as ham]
        refine Nat.succ_lt_succ (idxOf_lt_of_filter hn hm ?_)
        by_cases ha : keep a = true
        · rw [List.filter_cons_of_pos ha, List.idxOf_cons_ne _ han, List.idxOf_cons_ne _ ham] at h
          exact Nat.lt_of_succ_lt_succ h
        · rwa [List.filter_cons_of_neg ha] at h

theorem firstAppearances_eraseDups : ∀ all : List α, FirstAppearances all.eraseDups all
  | [] => ⟨.nil, fun _ => Iff.rfl, .nil⟩
  | a :: as => by
    obtain ⟨hnodup, -, hordered⟩ := firstAppearances_eraseDups (as.filter fun b => !b == a)
    have hrest : ∀ n, n ∈ (as.filter fun b => !b == a).eraseDups ↔ n ∈ as ∧ n ≠ a := by simp
    rw [List.eraseDups_cons]
    refine ⟨List.nodup_cons.2 ⟨fun ha => ((hrest a).1 ha).2 rfl, hnodup⟩, fun n => ?_,
      List.pairwise_cons.2 ⟨fun m hm => ?_, hordered.imp_of_mem fun {n m} hn hm hlt => ?_⟩⟩
    · by_cases hn : n = a <;> simp [hrest, hn]
    · rw [List.idxOf_cons_eq as rfl, List.idxOf_cons_ne as ((hrest m).1 hm).2.symm]
      exact Nat.succ_pos _
    · have hn := ((hrest n).1 hn).2
      have hm := ((hrest m).1 hm).2
      rw [List.idxOf_cons_ne as hn.symm, List.idxOf_cons_ne as hm.symm]
      exact Nat.succ_lt_succ (idxOf_lt_of_filter (by simpa using hn) (by simpa using hm) hlt)
termination_by all => all.length
decreasing_by exact Nat.lt_succ_of_le (List.length_filter_le _ _)

end FirstAppearances

/-! ## Expressions -/

namespace Expression

open Lexer

/-- The names of the variables among tokens, as often as they occur. -/
def variableTexts (ts : List (Token V)) : List (List Char) :=
  (ts.filter fun t => t.kind = some .variable).map Token.text

theorem mem_variableTexts {ts : List (Token V)} {name : List Char} :
    name ∈ variableTexts ts ↔ ∃ t ∈ ts, t.kind = some .variable ∧ t.text = name := by
  simp [variableTexts, and_assoc]

theorem firstAppearances_variableNames (x : Expression V) :
    FirstAppearances x.variableNames (variableTexts x.tokens) :=
  firstAppearances_eraseDups _

theorem mem_variableNames {x : Expression V} {name : List Char} :
    name ∈ x.variableNames ↔ ∃ t ∈ x.tokens, t.kind = some .variable ∧ t.text = name :=
  ((firstAppearances_variableNames x).mem_iff name).trans mem_variableTexts

theorem variableTexts_operands (ts : List (Token V)) :
    variableTexts (Postorder.operands ts) = variableTexts ts := by
  have hkinds : ∀ t ∈ ts, (decide (t.kind = some .variable) && Roles.isOperand t) =
      decide (t.kind = some .variable) := fun t _ => by
    by_cases hk : t.kind = some .variable <;> simp [Roles.isOperand, hk]
  rw [variableTexts, Postorder.operands, List.filter_filter, List.filter_congr hkinds, variableTexts]

/-- Numbers get their values, and variables stay what they are. -/
theorem variableTexts_valued [OfDecimal V] (ss : List Symbol) :
    variableTexts (ss.map (Symbol.valued (V := V))) = variableTexts (ss.map (Symbol.token (V := V))) := by
  simp only [variableTexts, List.filter_map, List.map_map, Function.comp_def, Symbol.kind_valued,
    Symbol.text_valued]

/-- The variables of an expression are those of its text, in the same order. -/
theorem variableTexts_parse [DigitLimit] [OfDecimal V] {text : List Char} {x : Expression V} (h : parse text = .ok x) :
    ∃ ts : List (Token V), lex text = .ok ts ∧ variableTexts x.tokens = variableTexts ts := by
  obtain ⟨ss, hcut⟩ := exists_cut true text
  have hread := readable_of_parse hcut h
  refine ⟨_, lex_cut hcut fun s hs => (hread s hs).scannable, ?_⟩
  rw [parse_cut hcut hread] at h
  cases hordered : Postorder.ofInfix (ss.map (Symbol.valued (V := V))) with
  | error e => simp [hordered, Except.mapError, Except.map] at h
  | ok vs =>
    rw [hordered] at h
    cases h
    rw [← variableTexts_valued, ← variableTexts_operands vs, Postorder.operands_of_ofInfix hordered,
      variableTexts_operands]

/-- **Variables.** The names of an expression are those of the variables in its text, each once, in the
order of their first appearance, and they are just what an evaluation reads. Bindings that agree on them
lead to the same value or the same error. If they are all bound, no evaluation misses a variable; if one
of them is not, no evaluation has a value. -/
theorem variables_read [DigitLimit] [OfDecimal V] [Arithmetic V E] {text : List Char} {x : Expression V}
    (h : parse text = .ok x) :
    (∃ ts : List (Token V), lex text = .ok ts ∧ FirstAppearances x.variableNames (variableTexts ts)) ∧
      (∀ bindings bindings' : List Char → Option V,
        (∀ name ∈ x.variableNames, bindings name = bindings' name) →
          x.evaluate bindings = x.evaluate bindings') ∧
      ∀ bindings : List Char → Option V,
        ((∀ name ∈ x.variableNames, bindings name ≠ none) →
          ∀ name, x.evaluate bindings ≠ .error (.unbound name)) ∧
        ∀ name ∈ x.variableNames, bindings name = none → ∀ v, x.evaluate bindings ≠ .ok v := by
  refine ⟨?_, fun bindings bindings' hagree => ?_, fun bindings => ⟨fun hbound name herror => ?_, ?_⟩⟩
  · obtain ⟨ts, hlex, hts⟩ := variableTexts_parse h
    exact ⟨ts, hlex, hts ▸ firstAppearances_variableNames x⟩
  · exact Evaluation.evaluate_congr fun t ht hk => hagree t.text (mem_variableNames.2 ⟨t, ht, hk, rfl⟩)
  · obtain ⟨t, ht, hk, htext, hnone⟩ := Evaluation.evaluate_unbound herror
    exact hbound name (mem_variableNames.2 ⟨t, ht, hk, htext⟩) hnone
  · intro name hname hnone v hvalue
    obtain ⟨t, ht, hk, rfl⟩ := mem_variableNames.1 hname
    exact Evaluation.bound_of_evaluate hvalue t ht hk hnone

/-- `max(b; a×b)-c`: the names are `b`, `a` and `c`. With `c` unbound there is no value, and `d` does not
matter. -/
theorem variables_read_max :
    let _ : DigitLimit := .standard
    let text := ['m', 'a', 'x', '(', 'b', ';', 'a', '×', 'b', ')', '-', 'c']
    let bindings : List Char → Option Decimal := fun name =>
      if name = ['a'] ∨ name = ['b'] then some ⟨2, 0⟩ else none
    ∃ x : Expression Decimal, parse text = .ok x ∧ x.variableNames = [['b'], ['a'], ['c']] ∧
      (∀ v, x.evaluate bindings ≠ .ok v) ∧
      (∀ name, x.evaluate (fun _ => some ⟨2, 0⟩) ≠ .error (.unbound name)) ∧
      ∀ d, x.evaluate (fun name => if name = ['d'] then d else bindings name) = x.evaluate bindings := by
  intro limit text bindings
  let a : Token Decimal := .spelled .variable ['a']
  let b : Token Decimal := .spelled .variable ['b']
  let c : Token Decimal := .spelled .variable ['c']
  have hx : parse text = .ok ⟨some text, [b, a, b, .spelled .operator ['×'],
      .spelled .function ['m', 'a', 'x'], c, .spelled .operator ['-']]⟩ := by rfl
  obtain ⟨-, hagree, hreads⟩ := variables_read hx
  refine ⟨_, hx, by rfl, (hreads bindings).2 ['c'] (by decide) rfl, (hreads _).1 (by simp), fun d => ?_⟩
  refine hagree _ _ fun name hname => if_neg ?_
  rintro rfl
  exact absurd hname (by decide)

end Expression

end Reckoner
