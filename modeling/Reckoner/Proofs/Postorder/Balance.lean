import Reckoner.Proofs.Postorder.Move

/-!
# What may be wrong with the order

Tokens that play a part in formulas are put in postorder, or their brackets do not balance: every
operator among them is in the table, so that nothing else can go wrong. Counting brackets tells
(`depthFrom`), since as many waiting tokens open a group as groups are open (`Move.splits`,
`steps_depth`). Main theorem `ofInfix_balance`.
-/
namespace Reckoner.Postorder

open Roles Formula

variable {V α β : Type}

/-- Does the symbol play any part in formulas? -/
def HasRole [Roles α] (a : α) : Prop :=
  isOperand a = true ∨ isFunction a = true ∨ (∃ p, precedence? a = some p) ∨ opens a = true ∨
    closes a = true ∨ separates a = true

instance [Roles α] : DecidablePred (HasRole (α := α)) := fun a =>
  decidable_of_iff (isOperand a = true ∨ isFunction a = true ∨ (precedence? a).isSome = true ∨
    opens a = true ∨ closes a = true ∨ separates a = true) (by simp [HasRole, Option.isSome_iff_exists])

theorem HasRole.map [Roles α] [Roles β] {f : α → β} (hf : KeepsRoles f) {a : α} (h : HasRole a) :
    HasRole (f a) := by
  simpa only [HasRole, hf.isOperand, hf.isFunction, hf.precedence?, hf.opens, hf.closes,
    hf.separates] using h

/-- An operator that plays a part is in the table. -/
theorem HasRole.ranked {t : Token V} (h : HasRole t) (hk : t.kind = some .operator) :
    ∃ p, precedence? t = some p := by
  simpa [HasRole, isOperand, isFunction, opens, closes, separates, hk] using h

/-! ## Depth -/

/-- The depth after the tokens, if it is `d` before them; or the first of them that closes or divides a
group at depth zero. Brackets count whatever their shapes. -/
def depthFrom : (d : Nat) → List (Token V) → Except (Token V) Nat
  | d, [] => .ok d
  | d, t :: ts =>
    if opens t then depthFrom (d + 1) ts
    else if (closes t || separates t) && d = 0 then .error t
    else depthFrom (if closes t then d - 1 else d) ts

theorem depthFrom_open {t : Token V} (h : opens t = true) (d : Nat) (ts : List (Token V)) :
    depthFrom d (t :: ts) = depthFrom (d + 1) ts := by
  simp [depthFrom, h]

theorem depthFrom_close {t : Token V} (h : closes t = true) (d : Nat) (ts : List (Token V)) :
    depthFrom (d + 1) (t :: ts) = depthFrom d ts := by
  have hopens : opens t = false := by simp_all [opens, closes]
  simp [depthFrom, h, hopens]

theorem depthFrom_separator {t : Token V} (h : separates t = true) (d : Nat) (ts : List (Token V)) :
    depthFrom (d + 1) (t :: ts) = depthFrom (d + 1) ts := by
  have hothers : opens t = false ∧ closes t = false := by simp_all [opens, closes, separates]
  simp [depthFrom, hothers]

/-- Operands, functions and operators neither open nor close groups. -/
theorem depthFrom_other {t : Token V} (h : t.steers = false) (d : Nat) (ts : List (Token V)) :
    depthFrom d (t :: ts) = depthFrom d ts := by
  have hothers : opens t = false ∧ closes t = false ∧ separates t = false := by
    simp_all [opens, closes, separates, Token.steers]
  simp [depthFrom, hothers]

theorem depthFrom_stray {t : Token V} (h : closes t = true ∨ separates t = true) (ts : List (Token V)) :
    depthFrom 0 (t :: ts) = .error t := by
  have hopens : opens t = false := by rcases h with h | h <;> simp_all [opens, closes, separates]
  have hstray : (closes t || separates t) = true := by simpa using h
  simp [depthFrom, hopens, hstray]

def openCount (w : List (Token V)) : Nat := w.countP Token.opensGroup

theorem openCount_append (us w : List (Token V)) : openCount (us ++ w) = openCount us + openCount w :=
  List.countP_append

theorem openCount_eq_zero {us : List (Token V)} (h : ∀ u ∈ us, u.opensGroup = false) :
    openCount us = 0 :=
  List.countP_eq_zero.2 fun u hu => by simp [h u hu]

theorem openCount_singleton {o : Token V} (ho : o.opensGroup = true) : openCount [o] = 1 := by
  simp [openCount, ho]

/-- Only where no group is open none can be closed. -/
theorem not_opensGroup_of_closeGroup {w out : List (Token V)} (h : closeGroup w out = none) :
    ∀ u ∈ w, u.opensGroup = false := by
  rcases exists_innermost w with hw | ⟨us, o, w', rfl, hus, ho⟩
  · exact hw
  · rw [closeGroup_append ho w' out hus] at h
    cases h

/-! ## Single tokens -/

theorem exists_yieldTo {op : Token V} {p : Nat} (hop : precedence? op = some p) :
    ∀ {w : List (Token V)} (out : List (Token V)), (∀ u ∈ w, HasRole u) →
      ∃ tracks, yieldTo op w out = .ok tracks
  | [], out, _ => ⟨_, rfl⟩
  | u :: w, out, hw => by
    simp only [yieldTo]
    by_cases hk : u.kind = some .operator
    · obtain ⟨q, hq⟩ := (hw u (by simp)).ranked hk
      simp only [hk, if_true, (kind_of_precedence? hq).2, (kind_of_precedence? hop).2, bind, Except.bind]
      by_cases hle : p ≤ q
      · simp only [hle, if_true]
        exact exists_yieldTo hop (u :: out) fun v hv => hw v (List.mem_cons_of_mem u hv)
      · simp only [hle, if_false]
        exact ⟨_, rfl⟩
    · simp only [hk, if_false]
      exact ⟨_, rfl⟩

/-- A token with a part is taken in, or it closes or divides a group where none is open. -/
theorem step_cases {t : Token V} {w : List (Token V)} (out : List (Token V)) (ht : HasRole t)
    (hw : ∀ u ∈ w, HasRole u) :
    (∃ tracks, Move ⟨w, out⟩ t tracks) ∨ (closes t = true ∨ separates t = true) ∧ openCount w = 0 ∧
      step ⟨w, out⟩ t = .error (.unbalanced t.text) := by
  rcases ht with ht | ht | ⟨p, hp⟩ | ht | ht | ht
  · exact .inl ⟨_, .operand ht⟩
  · exact .inl ⟨_, .wait (.inl ht)⟩
  · obtain ⟨tracks, h⟩ := exists_yieldTo hp out hw
    exact .inl ⟨_, .operator (kind_of_precedence? hp).1 h⟩
  · exact .inl ⟨_, .wait (.inr ht)⟩
  · cases h : closeGroup w out with
    | none =>
      refine .inr ⟨.inl ht, openCount_eq_zero (not_opensGroup_of_closeGroup h), ?_⟩
      simp only [closes, Bool.and_eq_true, decide_eq_true_eq] at ht
      simp [step, ht.1, ht.2, h]
    | some tracks => exact .inl ⟨_, .close ht h⟩
  · cases h : closeGroup w out with
    | none =>
      refine .inr ⟨.inr ht, openCount_eq_zero (not_opensGroup_of_closeGroup h), ?_⟩
      simp only [separates, decide_eq_true_eq] at ht
      simp [step, ht, h]
    | some tracks => exact .inl ⟨_, .separator ht h⟩

/-- A move takes tokens from the top of the waiting ones and may leave its own there. The depth changes
by the groups among these, whatever is open below. -/
theorem Move.splits {w out : List (Token V)} {t : Token V} {tracks : Tracks V}
    (h : Move ⟨w, out⟩ t tracks) : ∃ taken left kept, w = taken ++ kept ∧
      tracks.waiting = left ++ kept ∧ (left = [] ∨ left = [t]) ∧
        ∀ d ts, depthFrom (openCount taken + d) (t :: ts) = depthFrom (openCount left + d) ts := by
  cases h with
  | operand ht =>
    exact ⟨[], [], w, rfl, rfl, .inl rfl, fun d ts => depthFrom_other (not_steers_of_isOperand ht) _ ts⟩
  | wait ht =>
    refine ⟨[], [t], w, rfl, rfl, .inr rfl, fun d ts => ?_⟩
    rcases ht with ht | ht
    · have hcount : openCount [t] = 0 := by simp [openCount, opensGroup_of_isFunction ht]
      rw [hcount]
      exact depthFrom_other (not_steers_of_isFunction ht) _ ts
    · rw [openCount_singleton (opensGroup_of_opens ht), depthFrom_open ht]
      congr 1
      simp only [openCount, List.countP_nil]
      omega
  | operator ht h =>
    obtain ⟨us, rfl, hus, -⟩ := yieldTo_splits h
    refine ⟨us, [t], _, rfl, rfl, .inr rfl, fun d ts => ?_⟩
    have hcount : openCount us = 0 := openCount_eq_zero fun u hu =>
      opensGroup_of_not_steers (not_steers_of_operator (hus u hu))
    have hsteers := not_steers_of_operator ht
    have hcount' : openCount [t] = 0 := by simp [openCount, opensGroup_of_not_steers hsteers]
    rw [hcount, hcount', depthFrom_other hsteers]
  | separator ht h =>
    obtain ⟨us, o, rfl, hus, ho, -⟩ := closeGroup_splits h
    refine ⟨us ++ [o], [t], _, by simp, rfl, .inr rfl, fun d ts => ?_⟩
    rw [openCount_append, openCount_eq_zero hus, openCount_singleton ho,
      openCount_singleton (opensGroup_of_separates ht), Nat.zero_add, Nat.add_comm 1,
      depthFrom_separator ht]
  | @close _ _ _ closed ht h =>
    obtain ⟨us, o, rfl, hus, ho, -⟩ := closeGroup_splits h
    obtain ⟨w, out⟩ := closed
    obtain ⟨vs, kept, rfl, hvs, hcalled, -⟩ := closeCall_splits w
    refine ⟨us ++ ([o] ++ vs), [], kept, by simp, by rw [hcalled]; rfl, .inl rfl, fun d ts => ?_⟩
    have hcount : openCount vs = 0 := openCount_eq_zero fun v hv => opensGroup_of_isFunction (hvs v hv)
    have hnone : openCount ([] : List (Token V)) = 0 := rfl
    rw [openCount_append, openCount_append, openCount_eq_zero hus, openCount_singleton ho, hcount, hnone,
      Nat.zero_add, Nat.zero_add, Nat.add_zero, Nat.add_comm 1, depthFrom_close ht]

/-- Only the token itself may wait that did not wait before. -/
theorem Move.mem_waiting {w out : List (Token V)} {t : Token V} {tracks : Tracks V}
    (h : Move ⟨w, out⟩ t tracks) : ∀ u ∈ tracks.waiting, u = t ∨ u ∈ w := by
  obtain ⟨taken, left, kept, rfl, hwaiting, hleft, -⟩ := h.splits
  intro u hu
  rw [hwaiting] at hu
  rcases List.mem_append.1 hu with hu | hu
  · rcases hleft with rfl | rfl
    · cases hu
    · exact .inl (List.mem_singleton.1 hu)
  · exact .inr (List.mem_append_right taken hu)

theorem Move.depthFrom_eq {w out : List (Token V)} {t : Token V} {tracks : Tracks V}
    (h : Move ⟨w, out⟩ t tracks) (ts : List (Token V)) :
    depthFrom (openCount w) (t :: ts) = depthFrom (openCount tracks.waiting) ts := by
  obtain ⟨taken, left, kept, rfl, hwaiting, -, hdepth⟩ := h.splits
  rw [hwaiting, openCount_append, openCount_append]
  exact hdepth (openCount kept) ts

/-! ## All tokens -/

/-- Counting tells how a run ends: at the first token that closes or divides no group, or with as many
open groups as the depth says. -/
theorem steps_depth : ∀ {ts w : List (Token V)} (out : List (Token V)), (∀ t ∈ ts, HasRole t) →
    (∀ u ∈ w, HasRole u) → (steps ⟨w, out⟩ ts).map (fun tracks => openCount tracks.waiting) =
      (depthFrom (openCount w) ts).mapError fun t => .unbalanced t.text
  | [], w, out, _, _ => rfl
  | t :: ts, w, out, hts, hw => by
    have ht : HasRole t := hts t (by simp)
    rcases step_cases out ht hw with ⟨⟨w', out'⟩, hmove⟩ | ⟨hstray, hcount, hstep⟩
    · have hw' : ∀ u ∈ w', HasRole u := fun u hu => (hmove.mem_waiting u hu).elim (· ▸ ht) (hw u)
      rw [hmove.steps_cons, hmove.depthFrom_eq]
      exact steps_depth out' (fun u hu => hts u (List.mem_cons_of_mem t hu)) hw'
    · rw [hcount, depthFrom_stray hstray]
      simp only [steps, hstep, bind, Except.bind]
      rfl

/-- A token that waits on top of an open group, below the groups that `above` opens, is one of those
taken in, with these groups opened after it; or it waited before. -/
theorem exists_opening {above kept : List (Token V)} {o : Token V} (ho : o.opensGroup = true) :
    ∀ {ts w out : List (Token V)} {tracks : Tracks V}, steps ⟨w, out⟩ ts = .ok tracks →
      tracks.waiting = above ++ o :: kept →
        (∃ before after, ts = before ++ o :: after ∧ depthFrom 0 after = .ok (openCount above)) ∨
          ∃ above', w = above' ++ o :: kept ∧ depthFrom (openCount above') ts = .ok (openCount above)
  | [], w, out, tracks, h, hwaiting => by
    cases h
    exact .inr ⟨above, hwaiting, rfl⟩
  | t :: ts, w, out, tracks, h, hwaiting => by
    obtain ⟨next, hmove, h⟩ := exists_move h
    rcases exists_opening ho h hwaiting with ⟨before, after, rfl, hafter⟩ | ⟨above', hnext, hdepth⟩
    · exact .inl ⟨t :: before, after, rfl, hafter⟩
    · obtain ⟨taken, left, rest, rfl, hleft, hnew, hshift⟩ := hmove.splits
      rw [hleft] at hnext
      rcases hnew with rfl | rfl
      · refine .inr ⟨taken ++ above', by rw [List.append_assoc, ← hnext, List.nil_append], ?_⟩
        rw [openCount_append, hshift, ← hdepth]
        simp [openCount]
      · cases above' with
        | nil =>
          -- the token is the one that has just been taken in
          obtain ⟨rfl, -⟩ := List.cons.inj hnext
          exact .inl ⟨[], ts, rfl, hdepth⟩
        | cons u above' =>
          obtain ⟨rfl, rfl⟩ := List.cons.inj hnext
          refine .inr ⟨taken ++ above', by simp, ?_⟩
          rw [openCount_append, hshift, ← openCount_append, ← hdepth]
          rfl

/-! ## The order -/

variable {ts : List (Token V)}

/-- As `steps_depth` has it, from the start. -/
theorem run_depth (hts : ∀ t ∈ ts, HasRole t) :
    (steps {} ts).map (fun tracks : Tracks V => openCount tracks.waiting) =
      (depthFrom 0 ts).mapError fun t => .unbalanced t.text :=
  steps_depth [] hts (by simp)

theorem ofInfix_stray (hts : ∀ t ∈ ts, HasRole t) {t : Token V} (h : depthFrom 0 ts = .error t) :
    ofInfix ts = .error (.unbalanced t.text) := by
  have hdepth := run_depth hts
  rw [h] at hdepth
  cases hrun : steps ({} : Tracks V) ts with
  | ok tracks =>
    rw [hrun] at hdepth
    cases hdepth
  | error e =>
    rw [hrun] at hdepth
    simpa [ofInfix, hrun, bind, Except.bind] using Except.error.inj hdepth

/-- Where no group is closed or divided from outside, all tokens are taken in. -/
theorem exists_steps (hts : ∀ t ∈ ts, HasRole t) {d : Nat} (h : depthFrom 0 ts = .ok d) :
    ∃ tracks : Tracks V, steps {} ts = .ok tracks ∧ openCount tracks.waiting = d := by
  have hdepth := run_depth hts
  rw [h] at hdepth
  cases hrun : steps ({} : Tracks V) ts with
  | ok tracks =>
    rw [hrun] at hdepth
    exact ⟨tracks, rfl, Except.ok.inj hdepth⟩
  | error e =>
    rw [hrun] at hdepth
    cases hdepth

/-- The innermost open group is the one that is named, by the last token that opened an argument in it. -/
theorem ofInfix_unclosed (hts : ∀ t ∈ ts, HasRole t) {d : Nat} (h : depthFrom 0 ts = .ok (d + 1)) :
    ∃ before o after, ts = before ++ o :: after ∧ o.opensGroup = true ∧
      depthFrom 0 after = .ok 0 ∧ ofInfix ts = .error (.unclosed o.text) := by
  obtain ⟨tracks, hrun, hcount⟩ := exists_steps hts h
  rcases exists_innermost tracks.waiting with hw | ⟨us, o, kept, hwaiting, hus, ho⟩
  · rw [openCount_eq_zero hw] at hcount
    cases hcount
  · have hmessage : ofInfix ts = .error (.unclosed o.text) := by
      simp only [ofInfix, hrun, bind, Except.bind, hwaiting, drain_unclosed ho kept tracks.output hus]
    rcases exists_opening ho hrun hwaiting with ⟨before, after, rfl, hafter⟩ | ⟨above, hnil, -⟩
    · exact ⟨before, o, after, rfl, ho, openCount_eq_zero hus ▸ hafter, hmessage⟩
    · simp at hnil

theorem exists_ofInfix (hts : ∀ t ∈ ts, HasRole t) (h : depthFrom 0 ts = .ok 0) :
    ∃ us, ofInfix ts = .ok us := by
  obtain ⟨tracks, hrun, hcount⟩ := exists_steps hts h
  have hw : ∀ u ∈ tracks.waiting, u.opensGroup = false := fun u hu =>
    Bool.eq_false_iff.2 (List.countP_eq_zero.1 hcount u hu)
  refine ⟨(tracks.waiting.reverse ++ tracks.output).reverse, ?_⟩
  simp only [ofInfix, hrun, bind, Except.bind, drain_eq_ok tracks.output hw]

theorem ofInfix_cases (hts : ∀ t ∈ ts, HasRole t) : (∃ us, ofInfix ts = .ok us) ∨
    ∃ text, ofInfix ts = .error (.unbalanced text) ∨ ofInfix ts = .error (.unclosed text) := by
  cases h : depthFrom 0 ts with
  | error t => exact .inr ⟨t.text, .inl (ofInfix_stray hts h)⟩
  | ok d =>
    cases d with
    | zero => exact .inl (exists_ofInfix hts h)
    | succ d =>
      obtain ⟨-, o, -, -, -, -, herror⟩ := ofInfix_unclosed hts h
      exact .inr ⟨o.text, .inr herror⟩

/-- **Balance.** Tokens that play a part in formulas are put in postorder just when their brackets
balance, whatever their shapes. The first token that closes or divides a group outside all groups is
named, and if there is none, but a group is open at the end, so is what opened the innermost one: its
bracket, or the last separator in it. -/
theorem ofInfix_balance (hts : ∀ t ∈ ts, HasRole t) :
    (∀ t, depthFrom 0 ts = .error t → ofInfix ts = .error (.unbalanced t.text)) ∧
    (∀ d, depthFrom 0 ts = .ok (d + 1) → ∃ before o after, ts = before ++ o :: after ∧
      o.opensGroup = true ∧ depthFrom 0 after = .ok 0 ∧ ofInfix ts = .error (.unclosed o.text)) ∧
    (depthFrom 0 ts = .ok 0 → ∃ us, ofInfix ts = .ok us) :=
  ⟨fun _ h => ofInfix_stray hts h, fun _ h => ofInfix_unclosed hts h, exists_ofInfix hts⟩

/-- `a ) + ( b` names its `)`, `( a ; b` names its `;`, and `( a ]` balances. -/
theorem ofInfix_balance_shapes :
    let a : Token Unit := .spelled .variable ['a']
    let b : Token Unit := .spelled .variable ['b']
    let plus : Token Unit := .spelled .operator ['+']
    let semicolon : Token Unit := .spelled .comma [';']
    let opening : Token Unit := .bracket '(' false
    ofInfix [a, .bracket ')' true, plus, opening, b] = .error (.unbalanced [')']) ∧
      ofInfix [opening, a, semicolon, b] = .error (.unclosed [';']) ∧
      ∃ us, ofInfix [opening, a, .bracket ']' true] = .ok us := by
  intro a b plus semicolon opening
  have hstray : ∀ t ∈ [a, .bracket ')' true, plus, opening, b], HasRole t := by decide
  have hopen : ∀ t ∈ [opening, a, semicolon, b], HasRole t := by decide
  have hclosed : ∀ t ∈ [opening, a, .bracket ']' true], HasRole t := by decide
  refine ⟨(ofInfix_balance hstray).1 _ rfl, ?_, (ofInfix_balance hclosed).2.2 rfl⟩
  obtain ⟨before, o, after, hsplit, ho, hafter, herror⟩ := (ofInfix_balance hopen).2.1 0 rfl
  -- the name is that of the one token that opens a group and has a balanced rest after it
  rcases before with _ | ⟨_, _ | ⟨_, _ | ⟨_, _ | ⟨_, before⟩⟩⟩⟩
  · obtain ⟨rfl, rfl⟩ := List.cons.inj hsplit
    cases hafter
  · obtain ⟨rfl, -⟩ := List.cons.inj (List.cons.inj hsplit).2
    cases ho
  · obtain ⟨rfl, -⟩ := List.cons.inj (List.cons.inj (List.cons.inj hsplit).2).2
    exact herror
  · obtain ⟨rfl, -⟩ := List.cons.inj (List.cons.inj (List.cons.inj (List.cons.inj hsplit).2).2).2
    cases ho
  · simp at hsplit

end Reckoner.Postorder
