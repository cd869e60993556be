import Reckoner.Proofs.Evaluation.Stack
import Reckoner.Proofs.Evaluation.Value
import Reckoner.Proofs.Postorder.Move

/-!
# Substitution

Tokens in brackets send their own postorder, whatever waits below the opening bracket
(`Sends.enclosed`), and whatever they send, what comes before and after them sends the same
(`exists_context`). So they may take the place of an operand, unless a function waits right there:
that would take the group for its call. In expressions that apply functions in call form none does
(`free_of_callForm`). Main theorem `substitution`: substitution commutes with putting tokens in
postorder and with evaluating them.
-/
namespace Reckoner.Postorder

open Roles Evaluation

variable {V : Type}

/-! ## Calls -/

/-- Is no function on top of what waits after `ts`? A group that comes next is no call's then. -/
def Free (ts : List (Token V)) : Prop :=
  ∀ tracks, steps {} ts = .ok tracks → ∀ t, tracks.waiting.head? = some t → isFunction t = false

/-- Is every function followed by an opening bracket? -/
def CallForm : List (Token V) → Prop
  | [] => True
  | t :: ts => (isFunction t = true → ts.head?.any opens = true) ∧ CallForm ts

/-- Does every waiting function have a token right above it that opens a group? `above` tells whether
the token above all these does. -/
def Covered : (above : Bool) → List (Token V) → Prop
  | _, [] => True
  | above, t :: w => (isFunction t = true → above = true) ∧ Covered t.opensGroup w

theorem Covered.mono {w : List (Token V)} (h : Covered false w) (above : Bool) : Covered above w := by
  cases w with
  | nil => trivial
  | cons t w => exact ⟨fun ht => absurd (h.1 ht) (by simp), h.2⟩

theorem Covered.of_append {w : List (Token V)} : ∀ {us : List (Token V)},
    (∀ u ∈ us, u.opensGroup = false) → Covered false (us ++ w) → Covered false w
  | [], _, h => h
  | u :: us, hus, h => by
    have hrest : Covered u.opensGroup (us ++ w) := h.2
    rw [hus u (by simp)] at hrest
    exact Covered.of_append (fun v hv => hus v (by simp [hv])) hrest

theorem Covered.closeGroup {w out : List (Token V)} {tracks : Tracks V} (hw : Covered false w)
    (h : closeGroup w out = some tracks) : Covered true tracks.waiting := by
  obtain ⟨us, o, rfl, hus, ho, -⟩ := closeGroup_splits h
  exact ho ▸ (hw.of_append hus).2

theorem Covered.closeCall {tracks : Tracks V} (h : Covered true tracks.waiting) :
    Covered false (closeCall tracks).waiting := by
  obtain ⟨w, out⟩ := tracks
  cases w with
  | nil => trivial
  | cons t w =>
    have hrest : Covered t.opensGroup w := h.2
    by_cases ht : isFunction t = true
    · rw [opensGroup_of_isFunction ht] at hrest
      rw [closeCall_function ht]
      exact hrest
    · rw [Bool.not_eq_true] at ht
      rw [closeCall_eq_self ht]
      exact ⟨fun h => absurd h (by simp [ht]), hrest⟩

/-- Only a function that has just been taken in may have nothing above it. -/
theorem Move.covered {above : Bool} {w out : List (Token V)} {t : Token V} {tracks : Tracks V}
    (h : Move ⟨w, out⟩ t tracks) (hw : Covered above w) (habove : above = true → opens t = true) :
    Covered (isFunction t) tracks.waiting := by
  cases above with
  | true =>
    -- `t` follows a function: it is an opening bracket, and waits right above the function
    have hstep := h.step_eq
    rw [step_open (habove rfl)] at hstep
    cases hstep
    rw [← opensGroup_of_opens (habove rfl)] at hw
    exact ⟨id, hw⟩
  | false =>
    cases h with
    | operand => exact hw.mono _
    | wait => exact ⟨id, hw.mono _⟩
    | operator hk h =>
      obtain ⟨us, hsplit, hus, -⟩ := yieldTo_splits h
      have hopens : ∀ u ∈ us, u.opensGroup = false := fun u hu => by
        simp [Token.opensGroup, hus u hu]
      rw [hsplit] at hw
      exact ⟨id, (hw.of_append hopens).mono _⟩
    | separator hs h =>
      have hcovered := hw.closeGroup h
      rw [← opensGroup_of_separates hs] at hcovered
      exact ⟨id, hcovered⟩
    | close _ h => exact (hw.closeGroup h).closeCall.mono _

theorem not_opens_of_isOperand {x : Token V} (h : isOperand x) : opens x = false := by
  simp only [isOperand, Bool.or_eq_true, decide_eq_true_eq] at h
  rcases h with h | h <;> simp [opens, h]

/-- Before an operand, every function that still waits has its group open. -/
theorem covered_of_callForm {x : Token V} {post : List (Token V)} (hx : isOperand x) :
    ∀ {pre w out : List (Token V)} {above : Bool} {tracks : Tracks V}, CallForm (pre ++ x :: post) →
      Covered above w → (above = true → (pre ++ x :: post).head?.any opens = true) →
      steps ⟨w, out⟩ pre = .ok tracks → Covered false tracks.waiting
  | [], w, out, above, tracks, _, hw, habove, h => by
    cases h
    cases above with
    | false => exact hw
    | true =>
      have hopens : opens x = true := habove rfl
      rw [not_opens_of_isOperand hx] at hopens
      cases hopens
  | t :: pre, w, out, above, tracks, hcall, hw, habove, h => by
    obtain ⟨next, hmove, h⟩ := exists_move h
    exact covered_of_callForm hx hcall.2 (hmove.covered hw habove) hcall.1 h

/-- In call form, a group that takes an operand's place is no call's. -/
theorem free_of_callForm {x : Token V} {pre post : List (Token V)} (hx : isOperand x)
    (h : CallForm (pre ++ x :: post)) : Free pre := by
  intro tracks hsteps t ht
  have hnone : Covered false ([] : List (Token V)) := trivial
  have hcovered := covered_of_callForm hx h hnone (fun habove => by cases habove) hsteps
  cases hw : tracks.waiting with
  | nil => simp [hw] at ht
  | cons u w =>
    rw [hw] at ht hcovered
    cases ht
    exact Bool.eq_false_iff.2 fun hu => absurd (hcovered.1 hu) (by simp)

/-! ## Contexts -/

/-- Tokens in brackets send their own postorder, whatever waits below, unless it is a function. -/
theorem Sends.enclosed {w s ws sent : List (Token V)} {o c : Token V}
    (hw : ∀ t, w.head? = some t → isFunction t = false) (ho : opens o) (hc : closes c)
    (hs : Sends [] s ws sent) (hws : ∀ u ∈ ws, u.opensGroup = false) :
    Sends w (o :: (s ++ [c])) w (ws.reverse ++ sent) := fun floor out hfloor => by
  have hog := opensGroup_of_opens ho
  -- the opening bracket is the floor for all that `s` leaves waiting
  have hinside : steps ⟨o :: (w ++ floor), out⟩ s = .ok ⟨ws ++ o :: (w ++ floor), sent ++ out⟩ :=
    hs (o :: (w ++ floor)) out hog
  have hclose := (Move.close hc (closeGroup_append hog (w ++ floor) (sent ++ out) hws)).step_eq
  have hcall (base : List (Token V)) : closeCall ⟨w ++ floor, base⟩ = ⟨w ++ floor, base⟩ := by
    cases w with
    | nil => exact closeCall_floor hfloor base
    | cons t w => exact closeCall_eq_self (hw t rfl) (w ++ floor) base
  simp only [steps, step_open ho, bind, Except.bind]
  rw [steps_append, hinside]
  simp only [bind, Except.bind, steps, hclose, hcall, List.append_assoc]

/-- What stands around an operand sends the same whatever stands there in its place: another operand,
or, if no function takes it for its call, any tokens in brackets. -/
theorem exists_context {pre post u : List (Token V)} {x : Token V} (hx : isOperand x)
    (hu : ofInfix (pre ++ x :: post) = .ok u) :
    ∃ before after, u = before ++ x :: after ∧
      (∀ y, isOperand y → ofInfix (pre ++ y :: post) = .ok (before ++ y :: after)) ∧
      (Free pre → ∀ {s v : List (Token V)} {o c : Token V}, opens o → closes c → ofInfix s = .ok v →
        ofInfix (pre ++ o :: (s ++ c :: post)) = .ok (before ++ v ++ after)) := by
  -- `wp` waits where the operand stands, and the operand leaves it as it is
  obtain ⟨w, sent, hsends, hw, rfl⟩ := sends_of_ofInfix hu
  obtain ⟨wp, first, later, hpre, hpost, rfl⟩ := hsends.exists_around hx
  refine ⟨first.reverse, later.reverse ++ w, by simp, fun y hy => ?_, fun hfree s v o c ho hc hv => ?_⟩
  · simpa using (hpre.append ((sends_operand hy wp).append hpost)).ofInfix hw
  · have hwp : ∀ t, wp.head? = some t → isFunction t = false := by
      have hsteps := hpre.steps_eq []
      rw [List.append_nil] at hsteps
      exact hfree ⟨wp, first⟩ hsteps
    obtain ⟨ws, sent, hs, hws, rfl⟩ := sends_of_ofInfix hv
    simpa using (hpre.append ((hs.enclosed hwp ho hc hws).append hpost)).ofInfix hw

/-- The token in brackets, any number of times. -/
inductive Wrapped (x : Token V) : List (Token V) → Prop
  | self : Wrapped x [x]
  | bracket {o c : Token V} {ts : List (Token V)} (ho : opens o) (hc : closes c) (h : Wrapped x ts) :
      Wrapped x (o :: (ts ++ [c]))

theorem ofInfix_wrapped {x : Token V} {ts : List (Token V)} (hx : isOperand x) (h : Wrapped x ts) :
    ofInfix ts = .ok [x] := by
  have hself : ofInfix [x] = .ok [x] := (sends_operand hx []).ofInfix (by simp)
  induction h with
  | self => exact hself
  | bracket ho hc _ ih =>
    have hcontext : ofInfix ([] ++ x :: []) = .ok [x] := hself
    obtain ⟨before, after, hsplit, -, hgroup⟩ := exists_context hx hcontext
    have hfree : Free ([] : List (Token V)) := fun tracks h t ht => by
      cases h
      cases ht
    have hbracketed := hgroup hfree ho hc ih
    rw [hsplit]
    simpa using hbracketed

/-! ## Substitution -/

/-- **Substitution.** An operand that no waiting function stands over, such as any operand of tokens
in call form, may be replaced by tokens in brackets: in the postorder, theirs takes its place. If they
have a value, the result has the value, or the error, that it has with an operand of this value in
their place. Brackets around the operand itself change nothing. -/
theorem substitution {pre post u : List (Token V)} {x : Token V} (hx : isOperand x)
    (hu : ofInfix (pre ++ x :: post) = .ok u) (hfree : Free pre ∨ CallForm (pre ++ x :: post)) :
    ∃ before after, u = before ++ x :: after ∧
      (∀ y, isOperand y → ofInfix (pre ++ y :: post) = .ok (before ++ y :: after)) ∧
      (∀ {s v : List (Token V)} {o c : Token V}, opens o → closes c → ofInfix s = .ok v →
        ofInfix (pre ++ o :: (s ++ c :: post)) = .ok (before ++ v ++ after) ∧
        ∀ {E : Type} [Arithmetic V E] {bindings : List Char → Option V} {value : V},
          evaluate bindings v = .ok value → ∀ y, instruction? bindings y = some (.operand value) →
            evaluate bindings (before ++ v ++ after) = evaluate bindings (before ++ y :: after)) ∧
      ∀ ts, Wrapped x ts → ofInfix (pre ++ (ts ++ post)) = .ok u := by
  have hfree : Free pre := hfree.elim id (free_of_callForm hx)
  obtain ⟨before, after, rfl, hoperand, hgroup⟩ := exists_context hx hu
  refine ⟨before, after, rfl, hoperand, fun ho hc hs => ⟨hgroup hfree ho hc hs, ?_⟩, ?_⟩
  · intro E _ bindings value hvalue y hy
    have hpushes : Pushes bindings [y] value := pushes_of_step (step_eq_perform hy)
    simpa using evaluate_replace (pushes_of_evaluate hvalue) hpushes before after
  · intro ts hts
    cases hts with
    | self => exact hu
    | bracket ho hc h => simpa using hgroup hfree ho hc (ofInfix_wrapped hx h)

/-- `max(x; 2) × 3` with `[b + 1]`, and with `((x))`, in place of `x`, where `b` is 4. -/
theorem substitution_max :
    let _ : DigitLimit := .standard
    let named (k : Kind) (text : List Char) : Token Decimal := .spelled k text
    let number (m : Int) : Token Decimal := { kind := some .number, value := some ⟨m, 0⟩ }
    let max := named .function ['m', 'a', 'x']
    let plus := named .operator ['+']
    let times := named .operator ['×']
    let x := named .variable ['x']
    let b := named .variable ['b']
    let opening := Token.bracket (V := Decimal) '(' false
    let closing := Token.bracket (V := Decimal) ')' true
    let post := [named .comma [';'], number 2, closing, times, number 3]
    let bindings : List Char → Option Decimal := fun name => if name = ['b'] then some ⟨4, 0⟩ else none
    ofInfix ([max, opening, .bracket '[' false, b, plus, number 1, .bracket ']' true] ++ post) =
        .ok [b, number 1, plus, number 2, max, number 3, times] ∧
      evaluate bindings [b, number 1, plus, number 2, max, number 3, times] =
        evaluate bindings [number 5, number 2, max, number 3, times] ∧
      ofInfix ([max, opening, opening, opening, x, closing, closing] ++ post) =
        .ok [x, number 2, max, number 3, times] := by
  intro limit named number max plus times x b opening closing post bindings
  have hform : CallForm ([max, opening] ++ x :: post) :=
    ⟨fun _ => rfl, by simp [CallForm, isFunction, opening, x, post, named, number, closing, times,
      Token.spelled, Token.bracket]⟩
  have hinfix : ofInfix ([max, opening] ++ x :: post) = .ok [x, number 2, max, number 3, times] := rfl
  obtain ⟨before, after, hu, hoperand, hgroup, hwrapped⟩ := substitution rfl hinfix (.inr hform)
  have hfive : [number 5, number 2, max, number 3, times] = before ++ number 5 :: after :=
    Except.ok.inj (hoperand (number 5) rfl)
  obtain ⟨rfl, rfl⟩ : before = [] ∧ after = [number 2, max, number 3, times] := by
    cases before with
    | nil => exact ⟨rfl, by simpa using hu.symm⟩
    | cons y before =>
      have hx : x = y := (List.cons.inj hu).1
      have hnumber : number 5 = y := (List.cons.inj hfive).1
      have hkinds := congrArg Token.kind (hx.trans hnumber.symm)
      cases hkinds
  have hsum := hgroup (s := [b, plus, number 1]) (v := [b, number 1, plus]) (o := .bracket '[' false)
    (c := .bracket ']' true) rfl rfl rfl
  have hvalue : evaluate bindings [b, number 1, plus] = .ok ⟨5, 0⟩ := rfl
  refine ⟨hsum.1, hsum.2 hvalue (number 5) rfl, ?_⟩
  have hinner : Wrapped x (opening :: ([x] ++ [closing])) := .bracket rfl rfl .self
  have houter : Wrapped x (opening :: (opening :: ([x] ++ [closing]) ++ [closing])) :=
    .bracket rfl rfl hinner
  exact hwrapped _ houter

end Reckoner.Postorder
