import Mathlib.Algebra.Order.Group.Multiset
import Reckoner.Proofs.Postorder.Move

/-!
# What reaches the output

Brackets and separators only steer. All other tokens that are taken in wait or have been sent, and none
is lost or doubled on the way: a move adds its token to the bag of these, unless the token steers
(`Move.bag_eq`). So the output is made of the tokens that do not steer (`perm_of_ofInfix`). Operands do
not wait, and keep their order (`Move.operands`). Main theorem `ofInfix_conserves`.
-/
namespace Reckoner.Postorder

open Roles

variable {V : Type}

/-- The tokens among these that do not steer, in any order. -/
def keep (ts : List (Token V)) : Multiset (Token V) := ts.filter fun t => !t.steers

theorem keep_append (ts us : List (Token V)) : keep (ts ++ us) = keep ts + keep us := by
  simp [keep]

theorem keep_cons (t : Token V) (ts : List (Token V)) : keep (t :: ts) = keep [t] + keep ts :=
  keep_append [t] ts

theorem keep_steering {t : Token V} (h : t.steers = true) : keep [t] = 0 := by
  simp [keep, h]

theorem keep_eq_self {ts : List (Token V)} (h : ∀ t ∈ ts, t.steers = false) : keep ts = ts := by
  rw [keep, List.filter_eq_self.2]
  simpa using h

/-- The tokens that have been sent, and those that wait and do not steer. -/
def Tracks.bag (tracks : Tracks V) : Multiset (Token V) := keep tracks.waiting + tracks.output

/-- What waits and steers opens a group: no closing bracket waits. -/
def Waits (w : List (Token V)) : Prop := ∀ u ∈ w, u.opensGroup = false → u.steers = false

theorem Waits.keep_eq_self {us w : List (Token V)} (hw : Waits (us ++ w))
    (hus : ∀ u ∈ us, u.opensGroup = false) : keep us = us :=
  Postorder.keep_eq_self fun u hu => hw u (List.mem_append_left w hu) (hus u hu)

theorem Waits.filter_eq_self {w : List (Token V)} (hw : Waits w)
    (hgroup : ∀ u ∈ w, u.opensGroup = false) : (w.filter fun t => !t.steers) = w :=
  List.filter_eq_self.2 fun u hu => by rw [hw u hu (hgroup u hu), Bool.not_false]

theorem Waits.of_append {us w : List (Token V)} (hw : Waits (us ++ w)) : Waits w :=
  fun u hu => hw u (List.mem_append_right us hu)

theorem Waits.cons {t : Token V} {w : List (Token V)} (hw : Waits w)
    (ht : t.opensGroup = false → t.steers = false) : Waits (t :: w) :=
  List.forall_mem_cons.2 ⟨ht, hw⟩

/-- Sending tokens from the top changes no bag. -/
theorem Waits.bag_send {us w : List (Token V)} (hw : Waits (us ++ w))
    (hus : ∀ u ∈ us, u.opensGroup = false) (out : List (Token V)) :
    Tracks.bag ⟨w, us.reverse ++ out⟩ = Tracks.bag ⟨us ++ w, out⟩ := by
  simp only [Tracks.bag, keep_append, hw.keep_eq_self hus, ← Multiset.coe_add, Multiset.coe_reverse]
  rw [← add_assoc, add_comm (keep w)]

theorem bag_cons (t : Token V) (w out : List (Token V)) :
    Tracks.bag ⟨t :: w, out⟩ = keep [t] + Tracks.bag ⟨w, out⟩ := by
  rw [Tracks.bag, Tracks.bag, keep_cons, add_assoc]

/-- What closing the innermost group sends, and what is dropped. -/
theorem Waits.closeGroup {w out : List (Token V)} {tracks : Tracks V} (hw : Waits w)
    (h : closeGroup w out = some tracks) :
    Waits tracks.waiting ∧ tracks.bag = Tracks.bag ⟨w, out⟩ := by
  obtain ⟨us, o, rfl, hus, ho, hout⟩ := closeGroup_splits h
  have hbag := hw.bag_send hus out
  rw [bag_cons, keep_steering (steers_of_opensGroup ho), zero_add, ← hout] at hbag
  exact ⟨fun u hu => hw.of_append u (List.mem_cons_of_mem o hu), hbag⟩

theorem Waits.closeCall {w : List (Token V)} (hw : Waits w) (out : List (Token V)) :
    Waits (closeCall ⟨w, out⟩).waiting ∧ (closeCall ⟨w, out⟩).bag = Tracks.bag ⟨w, out⟩ := by
  obtain ⟨us, w', rfl, hus, hcalled, -⟩ := closeCall_splits w
  rw [hcalled]
  exact ⟨hw.of_append, hw.bag_send (fun u hu => opensGroup_of_isFunction (hus u hu)) out⟩

/-- A move adds its token to the bag, unless the token steers. -/
theorem Move.bag_eq {w out : List (Token V)} {t : Token V} {tracks : Tracks V}
    (h : Move ⟨w, out⟩ t tracks) (hw : Waits w) :
    Waits tracks.waiting ∧ tracks.bag = keep [t] + Tracks.bag ⟨w, out⟩ := by
  cases h with
  | operand ht =>
    refine ⟨hw, ?_⟩
    have hsteers : ∀ u ∈ [t], u.steers = false :=
      List.forall_mem_singleton.2 (not_steers_of_isOperand ht)
    rw [Tracks.bag, Tracks.bag, keep_eq_self hsteers, ← Multiset.cons_coe, ← Multiset.singleton_add]
    exact add_left_comm _ _ _
  | wait ht =>
    refine ⟨hw.cons fun hgroup => ?_, bag_cons t w out⟩
    rcases ht with ht | ht
    · exact not_steers_of_isFunction ht
    · rw [opensGroup_of_opens ht] at hgroup
      cases hgroup
  | operator ht h =>
    obtain ⟨us, rfl, hus, hout, -⟩ := yieldTo_splits h
    have hgroup : ∀ u ∈ us, u.opensGroup = false := fun u hu =>
      opensGroup_of_not_steers (not_steers_of_operator (hus u hu))
    refine ⟨hw.of_append.cons fun _ => not_steers_of_operator ht, ?_⟩
    rw [bag_cons, ← hw.bag_send hgroup out, ← hout]
  | separator ht h =>
    have hgroup := opensGroup_of_separates ht
    obtain ⟨hwaits, hbag⟩ := hw.closeGroup h
    refine ⟨hwaits.cons fun hnot => ?_, ?_⟩
    · rw [hgroup] at hnot
      cases hnot
    · rw [bag_cons, ← hbag]
  | @close _ _ _ closed ht h =>
    have hsteers : t.steers = true := by
      simp only [closes, Bool.and_eq_true, decide_eq_true_eq] at ht
      simp [Token.steers, ht.1]
    obtain ⟨hwaits, hbag⟩ := hw.closeGroup h
    obtain ⟨hwaits', hbag'⟩ := hwaits.closeCall closed.output
    exact ⟨hwaits', by rw [keep_steering hsteers, zero_add, ← hbag, ← hbag']⟩

theorem bag_of_steps : ∀ {ts : List (Token V)} {w out : List (Token V)} {tracks : Tracks V},
    steps ⟨w, out⟩ ts = .ok tracks → Waits w →
      Waits tracks.waiting ∧ tracks.bag = keep ts + Tracks.bag ⟨w, out⟩
  | [], w, out, tracks, h, hw => by
    cases h
    exact ⟨hw, (zero_add _).symm⟩
  | t :: ts, w, out, tracks, h, hw => by
    obtain ⟨next, hmove, h⟩ := exists_move h
    obtain ⟨hwaits, hbag⟩ := hmove.bag_eq hw
    obtain ⟨hwaits', hbag'⟩ := bag_of_steps h hwaits
    exact ⟨hwaits', by rw [hbag', keep_cons, hbag, add_left_comm, add_assoc]⟩

theorem Waits.nil : Waits ([] : List (Token V)) := fun _ hu => absurd hu List.not_mem_nil

/-- What a run has sent, with what it leaves waiting, is what waited before with what it takes in; what
steers does not count. -/
theorem Sends.perm {ts w w' sent : List (Token V)} (h : Sends w ts w' sent) (hw : Waits w) :
    Waits w' ∧ (sent.reverse ++ w'.filter fun t => !t.steers).Perm
      ((w.filter fun t => !t.steers) ++ ts.filter fun t => !t.steers) := by
  obtain ⟨hwaits, hbag⟩ := bag_of_steps (h.steps_eq []) hw
  refine ⟨hwaits, ?_⟩
  simp only [Tracks.bag, keep, List.append_nil, Multiset.coe_nil, add_zero] at hbag
  rw [← Multiset.coe_eq_coe, ← Multiset.coe_add, ← Multiset.coe_add, Multiset.coe_reverse, add_comm,
    hbag, add_comm]

/-- The output is made of the tokens that do not steer, each as often as it occurs. -/
theorem perm_of_ofInfix {ts vs : List (Token V)} (h : ofInfix ts = .ok vs) :
    vs.Perm (ts.filter fun t => !t.steers) := by
  obtain ⟨w, sent, hsends, hw, rfl⟩ := sends_of_ofInfix h
  obtain ⟨hwaits, hperm⟩ := hsends.perm Waits.nil
  rwa [hwaits.filter_eq_self hw] at hperm

/-! ## Operands -/

def operands (ts : List (Token V)) : List (Token V) := ts.filter isOperand

theorem operands_append (ts us : List (Token V)) : operands (ts ++ us) = operands ts ++ operands us :=
  List.filter_append ts us

theorem operands_cons (t : Token V) (ts : List (Token V)) : operands (t :: ts) = operands [t] ++ operands ts :=
  operands_append [t] ts

theorem operands_reverse (ts : List (Token V)) : operands ts.reverse = (operands ts).reverse :=
  List.filter_reverse

theorem operands_singleton {t : Token V} (h : isOperand t = false) : operands [t] = [] := by
  simp [operands, h]

theorem not_isOperand_of_steers {t : Token V} (h : t.steers = true) : isOperand t = false :=
  Bool.eq_false_iff.2 fun hoperand => by
    rw [not_steers_of_isOperand hoperand] at h
    cases h

theorem operands_send {us : List (Token V)} (hus : operands us = []) (out : List (Token V)) :
    operands (us.reverse ++ out) = operands out := by
  rw [operands_append, operands_reverse, hus, List.reverse_nil, List.nil_append]

theorem operands_closeGroup {w out : List (Token V)} {tracks : Tracks V}
    (h : closeGroup w out = some tracks) (hw : operands w = []) :
    operands tracks.waiting = [] ∧ operands tracks.output = operands out := by
  obtain ⟨us, o, rfl, -, -, hout⟩ := closeGroup_splits h
  rw [operands_append, operands_cons, List.append_eq_nil_iff, List.append_eq_nil_iff] at hw
  exact ⟨hw.2.2, by rw [hout, operands_send hw.1]⟩

theorem operands_closeCall {w : List (Token V)} (hw : operands w = []) (out : List (Token V)) :
    operands (closeCall ⟨w, out⟩).waiting = [] ∧
      operands (closeCall ⟨w, out⟩).output = operands out := by
  obtain ⟨us, w', rfl, -, hcalled, -⟩ := closeCall_splits w
  rw [operands_append, List.append_eq_nil_iff] at hw
  rw [hcalled]
  exact ⟨hw.2, operands_send hw.1 out⟩

/-- An operand is sent at once, and none waits. -/
theorem Move.operands_eq {w out : List (Token V)} {t : Token V} {tracks : Tracks V}
    (h : Move ⟨w, out⟩ t tracks) (hw : operands w = []) :
    operands tracks.waiting = [] ∧
      operands tracks.output = (operands [t]).reverse ++ operands out := by
  cases h with
  | operand ht => exact ⟨hw, by simp [operands, ht]⟩
  | wait ht =>
    have hoperand : operands [t] = [] := operands_singleton <| by
      rcases ht with ht | ht
      · simp_all [isOperand, isFunction]
      · exact not_isOperand_of_steers (steers_of_opensGroup (opensGroup_of_opens ht))
    rw [operands_cons t w, hoperand]
    exact ⟨hw, rfl⟩
  | operator ht h =>
    have hoperand : operands [t] = [] := operands_singleton (by simp [isOperand, ht])
    obtain ⟨us, rfl, -, hout, -⟩ := yieldTo_splits h
    rw [operands_append, List.append_eq_nil_iff] at hw
    rw [operands_cons t, hoperand, hout, operands_send hw.1]
    exact ⟨hw.2, rfl⟩
  | separator ht h =>
    have hoperand : operands [t] = [] := operands_singleton <|
      not_isOperand_of_steers (steers_of_opensGroup (opensGroup_of_separates ht))
    obtain ⟨hwaiting, hout⟩ := operands_closeGroup h hw
    rw [operands_cons t, hoperand, hout]
    exact ⟨hwaiting, rfl⟩
  | @close _ _ _ closed ht h =>
    have hoperand : operands [t] = [] := operands_singleton (by simp_all [isOperand, closes])
    obtain ⟨hwaiting, hout⟩ := operands_closeGroup h hw
    obtain ⟨hwaiting', hout'⟩ := operands_closeCall hwaiting closed.output
    exact ⟨hwaiting', by rw [hout', hout, hoperand]; rfl⟩

theorem operands_of_steps : ∀ {ts : List (Token V)} {w out : List (Token V)} {tracks : Tracks V},
    steps ⟨w, out⟩ ts = .ok tracks → operands w = [] →
      operands tracks.waiting = [] ∧
        operands tracks.output = (operands ts).reverse ++ operands out
  | [], w, out, tracks, h, hw => by
    cases h
    exact ⟨hw, rfl⟩
  | t :: ts, w, out, tracks, h, hw => by
    obtain ⟨next, hmove, h⟩ := exists_move h
    obtain ⟨hnext, hout⟩ := hmove.operands_eq hw
    obtain ⟨hwaiting, hout'⟩ := operands_of_steps h hnext
    exact ⟨hwaiting, by rw [hout', hout, operands_cons t ts, List.reverse_append, List.append_assoc]⟩

theorem Sends.operands_eq {ts w w' sent : List (Token V)} (h : Sends w ts w' sent) (hw : operands w = []) :
    operands w' = [] ∧ operands sent.reverse = operands ts := by
  obtain ⟨hw', hout⟩ := operands_of_steps (h.steps_eq []) hw
  rw [List.append_nil] at hout
  exact ⟨hw', by rw [operands_reverse, hout]; simp [operands]⟩

theorem operands_of_ofInfix {ts vs : List (Token V)} (h : ofInfix ts = .ok vs) :
    operands vs = operands ts := by
  obtain ⟨w, sent, hsends, -, rfl⟩ := sends_of_ofInfix h
  obtain ⟨hw, hsent⟩ := hsends.operands_eq rfl
  rw [operands_append, hw, hsent, List.append_nil]

/-! ## The output -/

/-- Does the token compute? Operands do, functions and operators. -/
def computes (t : Token V) : Bool := isOperand t || isFunction t || t.kind = some .operator

/-- A token that is taken in computes, or it steers. -/
theorem Move.computes_eq {w out : List (Token V)} {t : Token V} {tracks : Tracks V}
    (h : Move ⟨w, out⟩ t tracks) : computes t = !t.steers := by
  cases h with
  | operand ht => simp [computes, ht, not_steers_of_isOperand ht]
  | wait ht =>
    rcases ht with ht | ht
    · simp [computes, ht, not_steers_of_isFunction ht]
    · simp_all [computes, isOperand, isFunction, opens, Token.steers]
  | operator ht h => simp [computes, ht, not_steers_of_operator ht]
  | separator ht h => simp_all [computes, isOperand, isFunction, separates, Token.steers]
  | close ht h => simp_all [computes, isOperand, isFunction, closes, Token.steers]

theorem filter_computes_of_steps : ∀ {ts w out : List (Token V)} {tracks : Tracks V},
    steps ⟨w, out⟩ ts = .ok tracks → ts.filter computes = ts.filter fun t => !t.steers
  | [], _, _, _, _ => rfl
  | t :: ts, w, out, tracks, h => by
    obtain ⟨next, hmove, h⟩ := exists_move h
    rw [List.filter_cons, List.filter_cons, hmove.computes_eq, filter_computes_of_steps h]

/-- Where an operand stands in the output: before it what had been sent when it came, with all operands
from before it, and after it what waited then (`held`) and what came later. -/
theorem exists_split {before after vs : List (Token V)} {x : Token V} (hx : isOperand x = true)
    (h : ofInfix (before ++ x :: after) = .ok vs) : ∃ first held later, vs = first ++ x :: later ∧
      operands first = operands before ∧ (first ++ held).Perm (before.filter computes) ∧
        later.Perm (held ++ after.filter computes) := by
  obtain ⟨w, sent, hsends, hw, rfl⟩ := sends_of_ofInfix h
  obtain ⟨w', first, later, hfirst, hlater, rfl⟩ := hsends.exists_around hx
  obtain ⟨hwaits, hbefore⟩ := hfirst.perm Waits.nil
  obtain ⟨hwaits', hafter⟩ := hlater.perm hwaits
  rw [hwaits'.filter_eq_self hw] at hafter
  rw [filter_computes_of_steps (hfirst.steps_eq []), filter_computes_of_steps (hlater.steps_eq [])]
  exact ⟨first.reverse, w'.filter fun t => !t.steers, later.reverse ++ w, by simp,
    (hfirst.operands_eq rfl).2, hbefore, hafter⟩

/-- **Conservation.** Nothing is lost and nothing invented on the way to postorder. The output is made
of the operands, functions and operators, each as often as it occurs, without brackets and separators.
It has the operands in their order, and no function or operator before an operand that it came after. -/
theorem ofInfix_conserves {ts vs : List (Token V)} (h : ofInfix ts = .ok vs) :
    vs.Perm (ts.filter computes) ∧ (∀ v ∈ vs, v.steers = false) ∧
      vs.filter isOperand = ts.filter isOperand ∧
      ∀ before x after, ts = before ++ x :: after → isOperand x = true → ∃ first held later,
        vs = first ++ x :: later ∧ first.filter isOperand = before.filter isOperand ∧
          (first ++ held).Perm (before.filter computes) ∧
            later.Perm (held ++ after.filter computes) := by
  have hperm := perm_of_ofInfix h
  refine ⟨?_, fun v hv => ?_, operands_of_ofInfix h, fun before x after hts hx => ?_⟩
  · obtain ⟨w, sent, hsends, -, -⟩ := sends_of_ofInfix h
    rwa [filter_computes_of_steps (hsends.steps_eq [])]
  · simpa using List.of_mem_filter (hperm.mem_iff.1 hv)
  · exact exists_split hx (hts ▸ h)

/-- `max ( a ; [ b - c ] )`: the bracket that comes before `c` is dropped, and of the symbols that wait when
`c` comes none is sent before it. -/
theorem ofInfix_conserves_max :
    let a : Token Unit := .spelled .variable ['a']
    let b : Token Unit := .spelled .variable ['b']
    let c : Token Unit := .spelled .variable ['c']
    let minus : Token Unit := .spelled .operator ['-']
    let max : Token Unit := .spelled .function ['m', 'a', 'x']
    let before := [max, .bracket '(' false, a, .spelled .comma [';'], .bracket '[' false, b, minus]
    let after : List (Token Unit) := [.bracket ']' true, .bracket ')' true]
    let post := [a, b, c, minus, max]
    ofInfix (before ++ c :: after) = .ok post ∧ post.Perm [max, a, b, minus, c] ∧
      ∃ first held later, post = first ++ c :: later ∧ first.filter isOperand = [a, b] ∧
        (first ++ held).Perm [max, a, b, minus] ∧ later.Perm held := by
  intro a b c minus max before after post
  have h : ofInfix (before ++ c :: after) = .ok post := rfl
  obtain ⟨hperm, -, -, hsplit⟩ := ofInfix_conserves h
  obtain ⟨first, held, later, hpost, hfirst, hheld, hlater⟩ := hsplit before c after rfl rfl
  refine ⟨h, hperm, first, held, later, hpost, hfirst, hheld, ?_⟩
  simpa [computes, after, isOperand, isFunction, Token.bracket] using hlater

end Reckoner.Postorder
