import Reckoner.Proofs.Formula.Basic

/-!
# Infix order to postorder

What waits while a formula is read is what waited before it, under operators that the formula left
there: all of them bind at least as tightly as the formula's own operator, so whatever comes next
sends them to the output (`steps_renders`). Main theorem `ofInfix_renders`: the symbols that write a
formula are put in the formula's postorder.
-/
namespace Reckoner

variable {V : Type}

/-- The parts that tokens play. -/
instance : Roles (Token V) where
  isOperand t := t.kind = some .number || t.kind = some .variable
  precedence? t :=
    if t.kind = some .operator then (Operator.ofText? t.text).map Operator.precedence else none
  isFunction t := t.kind = some .function
  opens t := t.kind = some .bracket && !t.closing.getD false
  closes t := t.kind = some .bracket && t.closing.getD false
  separates t := t.kind = some .comma

def Token.spelled (kind : Kind) (text : List Char) : Token V := { kind := some kind, lexeme := .chars text }

def Token.bracket (c : Char) (closing : Bool) : Token V :=
  { kind := some .bracket, lexeme := .chars [c], closing := some closing }

namespace Postorder

open Formula Roles

/-! ## What the parts of a token tell -/

theorem kind_of_precedence? {t : Token V} {p : Nat} (h : precedence? t = some p) :
    t.kind = some .operator ∧ precedence t = .ok p := by
  simp only [precedence?] at h
  split at h
  · rename_i hk
    obtain ⟨op, hop, rfl⟩ := Option.map_eq_some_iff.1 h
    exact ⟨hk, by simp [precedence, hop]⟩
  · cases h

theorem opensGroup_of_opens {t : Token V} (h : opens t) : t.opensGroup = true := by
  simp only [opens, Bool.and_eq_true, decide_eq_true_eq] at h
  simpa [Token.opensGroup, h.1] using h.2

theorem opensGroup_of_separates {t : Token V} (h : separates t) : t.opensGroup = true := by
  simp only [separates, decide_eq_true_eq] at h
  simp [Token.opensGroup, h]

/-- Are all tokens operators that bind with a precedence of at least `p`? -/
def Tight (p : Nat) (us : List (Token V)) : Prop :=
  ∀ u ∈ us, ∃ q, precedence? u = some q ∧ p ≤ q

/-- Does what waits stay where it is when a formula of precedence `p` follows? No function is next
in line, and no operator that the formula's operator would send to the output. -/
def Settled (p : Nat) : List (Token V) → Prop
  | [] => True
  | t :: _ => t.kind ≠ some .function ∧
      (t.kind = some .operator → ∃ q, precedence? t = some q ∧ q < p)

theorem Tight.mono {p q : Nat} {us : List (Token V)} (h : Tight q us) (hpq : p ≤ q) :
    Tight p us := fun u hu => by
  obtain ⟨q', hq', hle⟩ := h u hu
  exact ⟨q', hq', by omega⟩

theorem Tight.append {p : Nat} {us vs : List (Token V)} (hus : Tight p us) (hvs : Tight p vs) :
    Tight p (us ++ vs) := fun u hu => (List.mem_append.1 hu).elim (hus u) (hvs u)

theorem Tight.not_opensGroup {p : Nat} {us : List (Token V)} (h : Tight p us) :
    ∀ u ∈ us, u.opensGroup = false := fun u hu => by
  obtain ⟨q, hq, _⟩ := h u hu
  simp [Token.opensGroup, (kind_of_precedence? hq).1]

theorem Settled.mono {p q : Nat} {w : List (Token V)} (h : Settled p w) (hpq : p ≤ q) :
    Settled q w := by
  cases w with
  | nil => trivial
  | cons t w =>
    refine ⟨h.1, fun hk => ?_⟩
    obtain ⟨q', hq', hlt⟩ := h.2 hk
    exact ⟨q', hq', by omega⟩

theorem settled_of_opensGroup {t : Token V} (h : t.opensGroup = true) (p : Nat)
    (w : List (Token V)) : Settled p (t :: w) := by
  constructor <;> intro hk <;> simp [Token.opensGroup, hk] at h

theorem settled_operator {t : Token V} {p : Nat} (h : precedence? t = some p)
    (w : List (Token V)) : Settled (p + 1) (t :: w) :=
  ⟨by simp [(kind_of_precedence? h).1], fun _ => ⟨p, h, Nat.lt_succ_self p⟩⟩

/-! ## Single moves -/

theorem steps_append (ts us : List (Token V)) :
    ∀ tracks : Tracks V, steps tracks (ts ++ us) = steps tracks ts >>= fun tracks => steps tracks us := by
  induction ts with
  | nil => intro tracks; rfl
  | cons t ts ih =>
    intro tracks
    simp only [List.cons_append, steps]
    cases step tracks t with
    | error e => rfl
    | ok next => exact ih next

/-- An operator sends out what binds at least as tightly, and nothing beyond it. -/
theorem yieldTo_tight {op : Token V} {p : Nat} (hop : precedence? op = some p)
    {w : List (Token V)} (hw : Settled p w) :
    ∀ {us : List (Token V)} (out : List (Token V)), Tight p us →
      yieldTo op (us ++ w) out = .ok ⟨w, us.reverse ++ out⟩
  | [], out, _ => by
    cases w with
    | nil => rfl
    | cons t w =>
      simp only [List.nil_append, List.reverse_nil, yieldTo]
      by_cases hk : t.kind = some .operator
      · obtain ⟨q, hq, hlt⟩ := hw.2 hk
        have hle : ¬ p ≤ q := by omega
        simp [hk, (kind_of_precedence? hq).2, (kind_of_precedence? hop).2, hle, bind, Except.bind]
      · simp [hk]
  | u :: us, out, hus => by
    obtain ⟨q, hq, hle⟩ := hus u (by simp)
    have hrest : Tight p us := fun v hv => hus v (by simp [hv])
    have ih := yieldTo_tight hop hw (u :: out) hrest
    simp only [List.cons_append, yieldTo]
    simp [(kind_of_precedence? hq).1, (kind_of_precedence? hq).2, (kind_of_precedence? hop).2, hle,
      bind, Except.bind, ih]

/-- Everything above the innermost token that opens a group is sent. -/
theorem closeGroup_append {o : Token V} (ho : o.opensGroup = true) (w : List (Token V)) :
    ∀ {us : List (Token V)} (out : List (Token V)), (∀ u ∈ us, u.opensGroup = false) →
      closeGroup (us ++ o :: w) out = some ⟨w, us.reverse ++ out⟩
  | [], out, _ => by simp [closeGroup, ho]
  | u :: us, out, hus => by
    have hrest : ∀ v ∈ us, v.opensGroup = false := fun v hv => hus v (by simp [hv])
    simp [closeGroup, hus u (by simp), closeGroup_append ho w (u :: out) hrest]

/-- If no group is open, what waits follows what has been sent. -/
theorem drain_eq_ok : ∀ {us : List (Token V)} (out : List (Token V)),
    (∀ u ∈ us, u.opensGroup = false) → drain us out = .ok (us.reverse ++ out).reverse
  | [], out, _ => rfl
  | u :: us, out, hus => by
    have hrest : ∀ v ∈ us, v.opensGroup = false := fun v hv => hus v (by simp [hv])
    simp [drain, hus u (by simp), drain_eq_ok (u :: out) hrest]

theorem step_operand {t : Token V} (h : isOperand t) (w out : List (Token V)) :
    step ⟨w, out⟩ t = .ok ⟨w, t :: out⟩ := by
  simp only [isOperand, Bool.or_eq_true, decide_eq_true_eq] at h
  rcases h with h | h <;> simp [step, h]

theorem step_operator {op : Token V} {p : Nat} (hop : precedence? op = some p)
    {us w : List (Token V)} (out : List (Token V)) (hus : Tight p us) (hw : Settled p w) :
    step ⟨us ++ w, out⟩ op = .ok ⟨op :: w, us.reverse ++ out⟩ := by
  simp [step, (kind_of_precedence? hop).1, yieldTo_tight hop hw out hus, bind, Except.bind, pure,
    Except.pure]

theorem step_function {f : Token V} (h : isFunction f) (w out : List (Token V)) :
    step ⟨w, out⟩ f = .ok ⟨f :: w, out⟩ := by
  simp only [isFunction, decide_eq_true_eq] at h
  simp [step, h]

theorem step_open {o : Token V} (h : opens o) (w out : List (Token V)) :
    step ⟨w, out⟩ o = .ok ⟨o :: w, out⟩ := by
  simp only [opens, Bool.and_eq_true, decide_eq_true_eq, Bool.not_eq_true'] at h
  simp [step, h.1, h.2]

theorem step_separator {s o : Token V} (hs : separates s) (ho : o.opensGroup = true)
    {us : List (Token V)} (w out : List (Token V)) (hus : Tight 0 us) :
    step ⟨us ++ o :: w, out⟩ s = .ok ⟨s :: w, us.reverse ++ out⟩ := by
  simp only [separates, decide_eq_true_eq] at hs
  simp [step, hs, closeGroup_append ho w out hus.not_opensGroup]

theorem step_close {c o : Token V} (hc : closes c) (ho : o.opensGroup = true)
    {us : List (Token V)} (w out : List (Token V)) (hus : Tight 0 us) :
    step ⟨us ++ o :: w, out⟩ c = .ok (closeCall ⟨w, us.reverse ++ out⟩) := by
  simp only [closes, Bool.and_eq_true, decide_eq_true_eq] at hc
  simp [step, hc.1, hc.2, closeGroup_append ho w out hus.not_opensGroup]

theorem closeCall_settled {p : Nat} {w : List (Token V)} (h : Settled p w) (out : List (Token V)) :
    closeCall ⟨w, out⟩ = ⟨w, out⟩ := by
  cases w with
  | nil => rfl
  | cons t w => simp [closeCall, h.1]

theorem closeCall_function {f : Token V} (h : isFunction f) (w out : List (Token V)) :
    closeCall ⟨f :: w, out⟩ = ⟨w, f :: out⟩ := by
  simp only [isFunction, decide_eq_true_eq] at h
  simp [closeCall, h]

/-! ## Whole formulas -/

/-- Taking in `ts` adds the symbols `vs` to the output, but for operators that bind with a precedence
of at least `p` and wait on top of what waited before. -/
def Adds (p : Nat) (w : List (Token V)) (ts vs : List (Token V)) : Prop :=
  ∀ out, ∃ us out', steps ⟨w, out⟩ ts = .ok ⟨us ++ w, out'⟩ ∧ Tight p us ∧
    us.reverse ++ out' = vs.reverse ++ out

/-- Taking in `ts` inside a group adds the symbols `vs` to the output, but for operators that wait
on top of the group's opening token, or of a separator in its place. -/
def AddsInside (o : Token V) (w : List (Token V)) (ts vs : List (Token V)) : Prop :=
  ∀ out, ∃ us o' out', steps ⟨o :: w, out⟩ ts = .ok ⟨us ++ o' :: w, out'⟩ ∧
    o'.opensGroup = true ∧ Tight 0 us ∧ us.reverse ++ out' = vs.reverse ++ out

theorem Adds.inside {o : Token V} {w ts vs : List (Token V)} (ho : o.opensGroup = true)
    (h : Adds 0 (o :: w) ts vs) : AddsInside o w ts vs := fun out => by
  obtain ⟨us, out', hsteps, hus, hout⟩ := h out
  exact ⟨us, o, out', hsteps, ho, hus, hout⟩

/-- A closing bracket sends out what is left of its group. -/
theorem steps_closed {o c : Token V} {w ts vs : List (Token V)} (h : AddsInside o w ts vs)
    (hc : closes c) (out : List (Token V)) :
    steps ⟨o :: w, out⟩ (ts ++ [c]) = .ok (closeCall ⟨w, vs.reverse ++ out⟩) := by
  obtain ⟨us, o', out', hsteps, ho', hus, hout⟩ := h out
  rw [steps_append, hsteps, ← hout]
  simp only [bind, Except.bind, steps, step_close hc ho' w out' hus]

theorem adds_group {o c : Token V} {p : Nat} {w ts vs : List (Token V)} (ho : opens o)
    (hc : closes c) (hw : Settled p w) (h : AddsInside o w ts vs) :
    Adds p w (o :: (ts ++ [c])) vs := fun out => by
  refine ⟨[], vs.reverse ++ out, ?_, by simp [Tight], rfl⟩
  simp only [steps, step_open ho, bind, Except.bind]
  rw [steps_closed h hc, closeCall_settled hw]
  rfl

theorem adds_call {f o c : Token V} {p : Nat} {w ts vs : List (Token V)} (hf : isFunction f)
    (ho : opens o) (hc : closes c) (h : AddsInside o (f :: w) ts vs) :
    Adds p w (f :: o :: (ts ++ [c])) (vs ++ [f]) := fun out => by
  refine ⟨[], f :: (vs.reverse ++ out), ?_, by simp [Tight], by simp⟩
  simp only [steps, step_function hf, step_open ho, bind, Except.bind]
  rw [steps_closed h hc, closeCall_function hf]
  rfl

theorem adds_binary {op : Token V} {p q : Nat} {w ls rs vs ws : List (Token V)}
    (hop : precedence? op = some q) (hpq : p ≤ q) (hw : Settled p w) (hl : Adds q w ls vs)
    (hr : Adds (q + 1) (op :: w) rs ws) : Adds p w (ls ++ op :: rs) (vs ++ ws ++ [op]) := fun out => by
  obtain ⟨us, out₁, hls, hus, hout₁⟩ := hl out
  obtain ⟨us', out₂, hrs, hus', hout₂⟩ := hr (us.reverse ++ out₁)
  refine ⟨us' ++ [op], out₂, ?_, ?_, ?_⟩
  · rw [steps_append, hls]
    simp only [bind, Except.bind, steps, step_operator hop out₁ hus (hw.mono hpq)]
    rw [hrs]
    simp
  · refine Tight.append (hus'.mono (by omega)) fun u hu => ?_
    rw [List.mem_singleton] at hu
    exact ⟨q, hu ▸ hop, hpq⟩
  · simp [hout₂, hout₁]

mutual

/-- The operators that a formula leaves waiting bind at least as tightly as its own does, unless it
is bracketed: then there are none. -/
theorem steps_renders : ∀ {e : Formula (Token V)} {b : Bool} {ts : List (Token V)}, Renders e b ts →
    ∀ {p : Nat} {w : List (Token V)}, (∀ q, e.rootPrecedence? = some q → q < p → b = true) →
      Settled p w → Adds p w ts e.postorder
  | _, _, _, .operand (a := a) ha, p, w, _, _ => fun out => by
    refine ⟨[], a :: out, ?_, by simp [Tight], by simp [postorder]⟩
    simp [steps, step_operand ha, bind, Except.bind]
  | _, _, _, .binary (p := q) hp hl hr left right, p, w, fit, hw => by
    have hpq : p ≤ q := Nat.le_of_not_lt fun hlt => absurd (fit q hp hlt) (by simp)
    rw [postorder]
    refine adds_binary hp hpq hw (steps_renders hl left (hw.mono hpq)) ?_
    exact steps_renders hr (fun r hr hlt => right r hr (by omega)) (settled_operator hp w)
  | _, _, _, .group ho hc he, p, w, _, hw => by
    have hog := opensGroup_of_opens ho
    rw [postorder]
    exact adds_group ho hc hw
      ((steps_renders he (fun q _ hlt => by omega) (settled_of_opensGroup hog 0 w)).inside hog)
  | _, _, _, .call hf ho hc hargs, p, w, _, hw => by
    rw [postorder]
    exact adds_call hf ho hc (steps_rendersArgs hargs (opensGroup_of_opens ho) _)
  | _, _, _, .bracket ho hc he, p, w, _, hw => by
    have hog := opensGroup_of_opens ho
    exact adds_group ho hc hw
      ((steps_renders he (fun q _ hlt => by omega) (settled_of_opensGroup hog 0 w)).inside hog)

/-- A separator takes the place of the token that opened the group. -/
theorem steps_rendersArgs : ∀ {es : List (Formula (Token V))} {ts : List (Token V)},
    RendersArgs es ts → ∀ {o : Token V}, o.opensGroup = true → ∀ w : List (Token V),
      AddsInside o w ts (postorderAll es)
  | _, _, .nil, o, ho, w => fun out => ⟨[], o, out, rfl, ho, by simp [Tight], rfl⟩
  | _, _, .one he, o, ho, w => by
    simp only [postorderAll, List.append_nil]
    exact (steps_renders he (fun q _ hlt => by omega) (settled_of_opensGroup ho 0 w)).inside ho
  | _, _, .cons (s := s) he hs hes, o, ho, w => fun out => by
    obtain ⟨us, out₁, hsteps, hus, hout₁⟩ :=
      steps_renders he (fun q _ hlt => by omega) (settled_of_opensGroup ho 0 w) out
    obtain ⟨us', o', out₂, hsteps', ho', hus', hout₂⟩ :=
      steps_rendersArgs hes (opensGroup_of_separates hs) w (us.reverse ++ out₁)
    refine ⟨us', o', out₂, ?_, ho', hus', ?_⟩
    · rw [steps_append, hsteps]
      simp only [bind, Except.bind, steps, step_separator hs ho w out₁ hus]
      exact hsteps'
    · rw [hout₂, hout₁]
      simp [postorderAll]

end

/-- The symbols that write a formula are put in the formula's postorder. -/
theorem ofInfix_renders {e : Formula (Token V)} {b : Bool} {ts : List (Token V)}
    (h : Renders e b ts) : ofInfix ts = .ok e.postorder := by
  obtain ⟨us, out, hsteps, hus, hout⟩ :=
    steps_renders (w := []) h (fun q _ hlt => absurd hlt (Nat.not_lt_zero q)) trivial []
  rw [List.append_nil] at hsteps hout
  unfold ofInfix
  rw [hsteps]
  simp only [bind, Except.bind]
  rw [drain_eq_ok out hus.not_opensGroup, hout, List.reverse_reverse]

/-- **Infix order to postorder.** However a formula is written, with brackets where precedence asks
for them and anywhere else, its symbols are put in postorder. A chain of operators of one precedence
is grouped to the left. -/
theorem postorder_of_writing :
    (∀ {e : Formula (Token V)} {b : Bool} {ts : List (Token V)}, Renders e b ts →
      ofInfix ts = .ok e.postorder) ∧
    ∀ {p : Nat} {first : Formula (Token V)} {b : Bool} {ts us : List (Token V)}
      {rest : List (Token V × Formula (Token V))}, Renders first b ts →
      (∀ q, first.rootPrecedence? = some q → q < p → b = true) → RendersChain p rest us →
      ofInfix (ts ++ us) = .ok (first.leftChain rest).postorder := by
  refine ⟨ofInfix_renders, fun hfirst left hrest => ?_⟩
  obtain ⟨b, h⟩ := hfirst.leftChain left hrest
  exact ofInfix_renders h

/-- `max[1; (a) - b - c] × 2`, and the chain in its second argument by itself. -/
theorem postorder_of_writing_call :
    let a : Token Unit := .spelled .variable ['a']
    let b : Token Unit := .spelled .variable ['b']
    let c : Token Unit := .spelled .variable ['c']
    let one : Token Unit := .spelled .number ['1']
    let two : Token Unit := .spelled .number ['2']
    let minus : Token Unit := .spelled .operator ['-']
    let times : Token Unit := .spelled .operator ['×']
    let max : Token Unit := .spelled .function ['m', 'a', 'x']
    ofInfix [max, .bracket '[' false, one, .spelled .comma [';'], .bracket '(' false, a,
      .bracket ')' true, minus, b, minus, c, .bracket ']' true, times, two] =
        .ok [one, a, b, minus, c, minus, max, two, times] ∧
      ofInfix [a, minus, b, minus, c] = .ok [a, b, minus, c, minus] := by
  intro a b c one two minus times max
  have atom (t : Token Unit) (h : isOperand t = true) : Renders (.operand t) false [t] := .operand h
  have loose (t : Token Unit) : ∀ q, (Formula.operand t).rootPrecedence? = some q → q ≤ 1 → false = true :=
    fun _ hq => by cases hq
  have chain : RendersChain 1 [(minus, .operand b), (minus, .operand c)] [minus, b, minus, c] :=
    .cons rfl (atom b rfl) (loose b) (.cons rfl (atom c rfl) (loose c) .nil)
  have inner : Renders (.operand a) true [.bracket '(' false, a, .bracket ')' true] :=
    .bracket rfl rfl (atom a rfl)
  obtain ⟨_, second⟩ := inner.leftChain (p := 1) (fun _ hq => by cases hq) chain
  have call : Renders (.call max _) false _ :=
    .call (o := .bracket '[' false) (c := .bracket ']' true) rfl rfl rfl
      (.cons (s := .spelled .comma [';']) (atom one rfl) rfl (.one second))
  have product : Renders (.binary times _ _) false _ :=
    .binary rfl call (atom two rfl) (fun _ hq => by cases hq) (fun _ hq => by cases hq)
  refine ⟨postorder_of_writing.1 product, ?_⟩
  exact postorder_of_writing.2 (atom a rfl) (fun _ hq => by cases hq) chain

end Postorder

end Reckoner
