import Reckoner.Proofs.Formula.Postorder

/-!
# Moves

What taking one token in can do is said once, by the rules of `Move` (`move_of_step`, `Move.step_eq`). What a run
does depends neither on the output that it finds nor on what waits below a token that opens a group
(`sends_of_steps`): it sends the same tokens and leaves the same ones waiting on top (`Sends`).
-/
namespace Reckoner

variable {V : Type}

/-- Does the token only steer? Brackets do, and separators. -/
def Token.steers (t : Token V) : Bool := t.kind = some .bracket || t.kind = some .comma

namespace Postorder

open Roles

/-! ## Sending tokens to the output -/

theorem steers_of_opensGroup {t : Token V} (h : t.opensGroup = true) : t.steers = true := by
  unfold Token.opensGroup at h
  split at h
  · rename_i hk
    simp [Token.steers, hk]
  · rename_i hk
    simp [Token.steers, hk]
  · cases h

theorem opensGroup_of_not_steers {t : Token V} (h : t.steers = false) : t.opensGroup = false :=
  Bool.eq_false_iff.2 fun hopens => by
    rw [steers_of_opensGroup hopens] at h
    cases h

theorem not_steers_of_isOperand {t : Token V} (h : isOperand t = true) : t.steers = false := by
  simp only [isOperand, Bool.or_eq_true, decide_eq_true_eq] at h
  rcases h with h | h <;> simp [Token.steers, h]

theorem not_steers_of_isFunction {t : Token V} (h : isFunction t = true) : t.steers = false := by
  simp only [isFunction, decide_eq_true_eq] at h
  simp [Token.steers, h]

theorem not_steers_of_operator {t : Token V} (h : t.kind = some .operator) : t.steers = false := by
  simp [Token.steers, h]

/-- Does nothing lie there, or a token that opens a group on top? No operator is sent from there. -/
def Floor : List (Token V) → Prop
  | [] => True
  | t :: _ => t.opensGroup = true

theorem opensGroup_of_isFunction {t : Token V} (h : isFunction t) : t.opensGroup = false :=
  opensGroup_of_not_steers (not_steers_of_isFunction h)

/-- An operator sends operators from the top of the waiting tokens, and leaves a floor alone. -/
theorem yieldTo_splits {op : Token V} : ∀ {w out : List (Token V)} {tracks : Tracks V},
    yieldTo op w out = .ok tracks → ∃ us, w = us ++ tracks.waiting ∧
      (∀ u ∈ us, u.kind = some .operator) ∧ tracks.output = us.reverse ++ out ∧
        ∀ floor base, Floor floor →
          yieldTo op (w ++ floor) base = .ok ⟨tracks.waiting ++ floor, us.reverse ++ base⟩
  | [], out, tracks, h => by
    cases h
    -- the token on top of a floor is no operator, so the loop ends there as it does at the bottom
    refine ⟨[], rfl, by simp, rfl, fun floor base hfloor => ?_⟩
    cases floor with
    | nil => rfl
    | cons o floor =>
      have hk : o.kind ≠ some .operator := by
        intro hk
        simp [Floor, Token.opensGroup, hk] at hfloor
      simp [yieldTo, hk]
  | t :: w, out, tracks, h => by
    simp only [List.cons_append, yieldTo] at h ⊢
    by_cases hk : t.kind = some .operator
    · simp only [hk, if_true] at h ⊢
      cases hmine : precedence t with
      | error e => simp [hmine, bind, Except.bind] at h
      | ok mine =>
        cases htheirs : precedence op with
        | error e => simp [hmine, htheirs, bind, Except.bind] at h
        | ok theirs =>
          simp only [hmine, htheirs, bind, Except.bind] at h ⊢
          by_cases hle : theirs ≤ mine
          · simp only [hle, if_true] at h ⊢
            obtain ⟨us, hw, hus, hout, hbase⟩ := yieldTo_splits h
            refine ⟨t :: us, by rw [hw, List.cons_append], by simpa [hk] using hus, by simp [hout], ?_⟩
            intro floor base hfloor
            simp [hbase floor (t :: base) hfloor]
          · simp only [hle, if_false] at h ⊢
            cases h
            exact ⟨[], rfl, by simp, rfl, fun floor base _ => rfl⟩
    · simp only [hk, if_false] at h ⊢
      cases h
      exact ⟨[], rfl, by simp, rfl, fun floor base _ => rfl⟩

/-- No group is open, or one is the innermost. -/
theorem exists_innermost : ∀ w : List (Token V), (∀ u ∈ w, u.opensGroup = false) ∨
    ∃ us o w', w = us ++ o :: w' ∧ (∀ u ∈ us, u.opensGroup = false) ∧ o.opensGroup = true
  | [] => .inl (by simp)
  | t :: w => by
    by_cases ht : t.opensGroup = true
    · exact .inr ⟨[], t, w, rfl, by simp, ht⟩
    · rw [Bool.not_eq_true] at ht
      rcases exists_innermost w with hw | ⟨us, o, w', rfl, hus, ho⟩
      · exact .inl (by simpa [ht] using hw)
      · exact .inr ⟨t :: us, o, w', rfl, by simpa [ht] using hus, ho⟩

theorem closeGroup_eq_none : ∀ {w : List (Token V)} (out : List (Token V)),
    (∀ u ∈ w, u.opensGroup = false) → closeGroup w out = none
  | [], _, _ => rfl
  | t :: w, out, hw => by
    have hrest : ∀ v ∈ w, v.opensGroup = false := fun v hv => hw v (by simp [hv])
    simp [closeGroup, hw t (by simp), closeGroup_eq_none (t :: out) hrest]

/-- The group that is closed is the innermost. -/
theorem closeGroup_splits {w out : List (Token V)} {tracks : Tracks V}
    (h : closeGroup w out = some tracks) : ∃ us o, w = us ++ o :: tracks.waiting ∧
      (∀ u ∈ us, u.opensGroup = false) ∧ o.opensGroup = true ∧ tracks.output = us.reverse ++ out := by
  rcases exists_innermost w with hw | ⟨us, o, w', rfl, hus, ho⟩
  · rw [closeGroup_eq_none out hw] at h
    cases h
  · rw [closeGroup_append ho w' out hus] at h
    cases h
    exact ⟨us, o, rfl, hus, ho, rfl⟩

theorem drain_unclosed {o : Token V} (ho : o.opensGroup = true) (w : List (Token V)) :
    ∀ {us : List (Token V)} (out : List (Token V)), (∀ u ∈ us, u.opensGroup = false) →
      drain (us ++ o :: w) out = .error (.unclosed o.text)
  | [], out, _ => by simp [drain, ho]
  | u :: us, out, hus => by
    have hrest : ∀ v ∈ us, v.opensGroup = false := fun v hv => hus v (by simp [hv])
    simp [drain, hus u (by simp), drain_unclosed ho w (u :: out) hrest]

/-! ## Single moves -/

/-- What taking a token in can do. -/
inductive Move : Tracks V → Token V → Tracks V → Prop
  | operand {w out : List (Token V)} {t : Token V} (ht : isOperand t) :
      Move ⟨w, out⟩ t ⟨w, t :: out⟩
  /-- Functions and opening brackets wait. -/
  | wait {w out : List (Token V)} {t : Token V} (ht : isFunction t = true ∨ opens t = true) :
      Move ⟨w, out⟩ t ⟨t :: w, out⟩
  | operator {w out : List (Token V)} {t : Token V} {tracks : Tracks V} (ht : t.kind = some .operator)
      (h : yieldTo t w out = .ok tracks) : Move ⟨w, out⟩ t { tracks with waiting := t :: tracks.waiting }
  | separator {w out : List (Token V)} {t : Token V} {tracks : Tracks V} (ht : separates t)
      (h : closeGroup w out = some tracks) :
      Move ⟨w, out⟩ t { tracks with waiting := t :: tracks.waiting }
  | close {w out : List (Token V)} {t : Token V} {tracks : Tracks V} (ht : closes t)
      (h : closeGroup w out = some tracks) : Move ⟨w, out⟩ t (closeCall tracks)

theorem Move.step_eq {tracks tracks' : Tracks V} {t : Token V} (h : Move tracks t tracks') :
    step tracks t = .ok tracks' := by
  cases h with
  | operand ht => exact step_operand ht _ _
  | wait ht =>
    rcases ht with ht | ht
    · exact step_function ht _ _
    · exact step_open ht _ _
  | operator ht h => simp [step, ht, h, bind, Except.bind, pure, Except.pure]
  | separator ht h =>
    simp only [separates, decide_eq_true_eq] at ht
    simp [step, ht, h]
  | close ht h =>
    simp only [closes, Bool.and_eq_true, decide_eq_true_eq] at ht
    simp [step, ht.1, ht.2, h]

theorem move_of_step {tracks tracks' : Tracks V} {t : Token V} (h : step tracks t = .ok tracks') :
    Move tracks t tracks' := by
  obtain ⟨w, out⟩ := tracks
  unfold step at h
  split at h
  · rename_i hk
    cases h
    exact .operand (by simp [isOperand, hk])
  · rename_i hk
    cases h
    exact .operand (by simp [isOperand, hk])
  · rename_i hk
    cases h
    exact .wait (.inl (by simp [isFunction, hk]))
  · rename_i hk
    cases hy : yieldTo t w out with
    | error e => simp [hy, bind, Except.bind] at h
    | ok tracks =>
      simp only [hy, bind, Except.bind, pure, Except.pure, Except.ok.injEq] at h
      exact h ▸ .operator hk hy
  · rename_i hk
    cases hc : closeGroup w out with
    | none => simp [hc] at h
    | some tracks =>
      simp only [hc, Except.ok.injEq] at h
      exact h ▸ .separator (by simp [separates, hk]) hc
  · rename_i hk
    split at h
    · rename_i hclosing
      cases hc : closeGroup w out with
      | none => simp [hc] at h
      | some tracks =>
        simp only [hc, Except.ok.injEq] at h
        exact h ▸ .close (by simp [closes, hk, hclosing]) hc
    · rename_i hclosing
      cases h
      exact .wait (.inr (by simpa [opens, hk] using hclosing))
  · cases h

theorem Move.steps_cons {tracks next : Tracks V} {t : Token V} (h : Move tracks t next)
    (ts : List (Token V)) : steps tracks (t :: ts) = steps next ts := by
  simp only [steps, h.step_eq, bind, Except.bind]

/-- A run starts with a move. -/
theorem exists_move {tracks tracks' : Tracks V} {t : Token V} {ts : List (Token V)}
    (h : steps tracks (t :: ts) = .ok tracks') :
    ∃ next, Move tracks t next ∧ steps next ts = .ok tracks' := by
  cases hstep : step tracks t with
  | error e => simp [steps, hstep, bind, Except.bind] at h
  | ok next =>
    simp only [steps, hstep, bind, Except.bind] at h
    exact ⟨next, move_of_step hstep, h⟩

/-! ## Runs -/

theorem closeCall_eq_self {t : Token V} (ht : isFunction t = false) (w out : List (Token V)) :
    closeCall ⟨t :: w, out⟩ = ⟨t :: w, out⟩ := by
  simp only [isFunction, decide_eq_false_iff_not] at ht
  simp [closeCall, ht]

theorem closeCall_floor {floor : List (Token V)} (h : Floor floor) (out : List (Token V)) :
    closeCall ⟨floor, out⟩ = ⟨floor, out⟩ := by
  cases floor with
  | nil => rfl
  | cons o floor =>
    have ho : isFunction o = false := Bool.eq_false_iff.2 fun hf => by
      rw [Floor, opensGroup_of_isFunction hf] at h
      cases h
    exact closeCall_eq_self ho floor out

/-- The call that a bracket has closed is the topmost of the waiting tokens, or none. -/
theorem closeCall_splits (w : List (Token V)) :
    ∃ us w', w = us ++ w' ∧ (∀ u ∈ us, isFunction u = true) ∧
      (∀ base, closeCall ⟨w, base⟩ = ⟨w', us.reverse ++ base⟩) ∧
        ∀ floor base, Floor floor →
          closeCall ⟨w ++ floor, base⟩ = ⟨w' ++ floor, us.reverse ++ base⟩ := by
  cases w with
  | nil =>
    exact ⟨[], [], rfl, by simp, fun base => rfl, fun floor base hfloor => closeCall_floor hfloor base⟩
  | cons t w =>
    by_cases ht : isFunction t = true
    · exact ⟨[t], w, rfl, by simpa using ht, closeCall_function ht w, fun floor base _ =>
        closeCall_function ht (w ++ floor) base⟩
    · rw [Bool.not_eq_true] at ht
      exact ⟨[], t :: w, rfl, by simp, closeCall_eq_self ht w, fun floor base _ =>
        closeCall_eq_self ht (w ++ floor) base⟩

/-- A move sends the same tokens whatever the output is, and whatever lies below a floor. -/
theorem Move.sends {w out : List (Token V)} {t : Token V} {tracks : Tracks V}
    (h : Move ⟨w, out⟩ t tracks) : ∃ sent, tracks.output = sent ++ out ∧
      ∀ floor base, Floor floor → Move ⟨w ++ floor, base⟩ t ⟨tracks.waiting ++ floor, sent ++ base⟩ := by
  cases h with
  | operand ht => exact ⟨[t], rfl, fun floor base _ => .operand ht⟩
  | wait ht => exact ⟨[], rfl, fun floor base _ => .wait ht⟩
  | operator ht h =>
    obtain ⟨us, -, -, hout, hbase⟩ := yieldTo_splits h
    refine ⟨us.reverse, hout, fun floor base hfloor => ?_⟩
    exact .operator ht (hbase floor base hfloor)
  | separator ht h =>
    obtain ⟨us, o, rfl, hus, ho, hout⟩ := closeGroup_splits h
    refine ⟨us.reverse, hout, fun floor base _ => ?_⟩
    simpa using Move.separator ht (closeGroup_append ho (_ ++ floor) base hus)
  | @close _ _ _ closed ht h =>
    obtain ⟨us, o, rfl, hus, ho, hout⟩ := closeGroup_splits h
    obtain ⟨w', out'⟩ := closed
    obtain ⟨vs, w'', rfl, -, hcalled, hcall⟩ := closeCall_splits w'
    rw [hcalled]
    refine ⟨vs.reverse ++ us.reverse, by simp [← hout], fun floor base hfloor => ?_⟩
    have hmove := Move.close ht (closeGroup_append ho (vs ++ w'' ++ floor) base hus)
    rw [hcall floor _ hfloor] at hmove
    simpa using hmove

/-- Taking `ts` in where `w` waits leaves `w'` waiting and sends `sent`, the latest first, whatever
the output is, and whatever lies below a floor. -/
def Sends (w ts w' sent : List (Token V)) : Prop :=
  ∀ floor out, Floor floor → steps ⟨w ++ floor, out⟩ ts = .ok ⟨w' ++ floor, sent ++ out⟩

theorem sends_of_steps : ∀ {ts w out : List (Token V)} {tracks : Tracks V},
    steps ⟨w, out⟩ ts = .ok tracks →
      ∃ sent, tracks.output = sent ++ out ∧ Sends w ts tracks.waiting sent
  | [], w, out, tracks, h => by
    cases h
    exact ⟨[], rfl, fun floor base _ => rfl⟩
  | t :: ts, w, out, tracks, h => by
    -- the rest of the run starts from what the first move has sent, and sends more on top of it
    obtain ⟨⟨w', out'⟩, hfirst, h⟩ := exists_move h
    obtain ⟨sent, hout, hmove⟩ := hfirst.sends
    have hsent : out' = sent ++ out := hout
    obtain ⟨sent', hout', hrest⟩ := sends_of_steps h
    rw [hsent, ← List.append_assoc] at hout'
    refine ⟨sent' ++ sent, hout', fun floor base hfloor => ?_⟩
    rw [(hmove floor base hfloor).steps_cons, hrest floor _ hfloor, List.append_assoc]

theorem Sends.steps_eq {w ts w' sent : List (Token V)} (h : Sends w ts w' sent) (out : List (Token V)) :
    steps ⟨w, out⟩ ts = .ok ⟨w', sent ++ out⟩ := by
  have hsteps := h [] out trivial
  rwa [List.append_nil, List.append_nil] at hsteps

theorem Sends.append {w ts w' sent us w'' sent' : List (Token V)} (h : Sends w ts w' sent)
    (h' : Sends w' us w'' sent') : Sends w (ts ++ us) w'' (sent' ++ sent) := fun floor out hfloor => by
  rw [steps_append, h floor out hfloor, List.append_assoc]
  exact h' floor _ hfloor

theorem sends_operand {x : Token V} (hx : isOperand x) (w : List (Token V)) : Sends w [x] w [x] :=
  fun floor out _ => by simp [steps, step_operand hx, bind, Except.bind]

theorem Sends.exists_append {w ts us w'' sent : List (Token V)} (h : Sends w (ts ++ us) w'' sent) :
    ∃ w' first later, Sends w ts w' first ∧ Sends w' us w'' later ∧ sent = later ++ first := by
  have hsteps := h.steps_eq []
  rw [steps_append, List.append_nil] at hsteps
  cases hts : steps ⟨w, []⟩ ts with
  | error e => simp [hts, bind, Except.bind] at hsteps
  | ok next =>
    obtain ⟨w', out⟩ := next
    rw [hts] at hsteps
    obtain ⟨first, hfirst, hsends⟩ := sends_of_steps hts
    obtain ⟨later, hlater, hsends'⟩ := sends_of_steps hsteps
    rw [List.append_nil] at hfirst
    exact ⟨w', first, later, hsends, hsends', hfirst ▸ hlater⟩

/-- A run over an operand sends it, and leaves alone what waits then. -/
theorem Sends.exists_around {w ts us w'' sent : List (Token V)} {x : Token V} (hx : isOperand x)
    (h : Sends w (ts ++ x :: us) w'' sent) :
    ∃ w' first later, Sends w ts w' first ∧ Sends w' us w'' later ∧ sent = later ++ x :: first := by
  obtain ⟨w', first, rest, hfirst, hrest, rfl⟩ := h.exists_append
  have hsteps := hrest.steps_eq []
  rw [(Move.operand hx).steps_cons, List.append_nil] at hsteps
  obtain ⟨later, hout, hlater⟩ := sends_of_steps hsteps
  have hrest : rest = later ++ [x] := hout
  exact ⟨w', first, later, hfirst, hlater, by simp [hrest]⟩

/-- The output once all tokens are taken in and no group is open. -/
theorem Sends.ofInfix {ts w sent : List (Token V)} (h : Sends [] ts w sent)
    (hw : ∀ u ∈ w, u.opensGroup = false) : ofInfix ts = .ok (sent.reverse ++ w) := by
  rw [Postorder.ofInfix, h.steps_eq, List.append_nil]
  simp [drain_eq_ok sent hw, bind, Except.bind]

theorem sends_of_ofInfix {ts vs : List (Token V)} (h : ofInfix ts = .ok vs) :
    ∃ w sent, Sends [] ts w sent ∧ (∀ u ∈ w, u.opensGroup = false) ∧ vs = sent.reverse ++ w := by
  cases hsteps : steps ({} : Tracks V) ts with
  | error e => simp [ofInfix, hsteps, bind, Except.bind] at h
  | ok tracks =>
    obtain ⟨sent, hout, hsends⟩ := sends_of_steps hsteps
    rw [List.append_nil] at hout
    simp only [ofInfix, hsteps, bind, Except.bind, hout] at h
    rcases exists_innermost tracks.waiting with hw | ⟨us, o, w', hwaiting, hus, ho⟩
    · rw [drain_eq_ok sent hw] at h
      cases h
      exact ⟨tracks.waiting, sent, hsends, hw, by simp⟩
    · rw [hwaiting, drain_unclosed ho w' sent hus] at h
      cases h

end Postorder

end Reckoner
