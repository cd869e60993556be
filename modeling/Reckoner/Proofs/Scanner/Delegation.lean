import Reckoner.Proofs.Lexer.Cut
import Reckoner.Proofs.Scanner.Calls

/-!
# Delegation

A step that delegates gets the answer that the other scanner, run by itself on the rest of the text, would
give, and with it all of its tokens or none (`Delegates`). The transformers of the enclosing run do not reach
them (`transform_respells`). Where the steps of a run delegate at most once each, the slices that they
delegate lie one after the other (`Runs.inOrder`). Main theorem `delegation_exact`.
-/
namespace Reckoner

variable {V σ τ T : Type}

/-! ## A single delegation -/

section Single
variable {mode : Mode} {n : Scanner V τ T} {rest : List Char} {kind : Option Kind} {key : Option String}
  {fields : List (Field V T)} {w w' : Workspace V T}

/-- What a delegation to a scanner answers, and what it makes of the workspace. The cursor is no part of the
workspace: it stays where it is until the step is over, and moves on by `advance` then. -/
structure Delegates (mode : Mode) (n : Scanner V τ T) (rest : List Char) (kind : Option Kind)
    (key : Option String) (fields : List (Field V T)) (w : Workspace V T) : Prop where
  accepts_iff : (∃ w', w.delegate mode rest n.tokenizer kind key fields = .ok (true, w')) ↔
    ∃ o t, n.run rest = .ok o ∧ o.result = .ok t ∧ 0 < t.consumed
  rejects_iff : (∃ w', w.delegate mode rest n.tokenizer kind key fields = .ok (false, w')) ↔
    ∃ o, n.run rest = .ok o ∧ ((∃ e, o.result = .error e) ∨ ∃ t, o.result = .ok t ∧ t.consumed = 0)
  fails_iff : ∀ e, w.delegate mode rest n.tokenizer kind key fields = .error e ↔ n.run rest = .error e
  /-- Rejected, it leaves the tokens, the active one among them, and the way to go as they were. -/
  rejected : ∀ w', w.delegate mode rest n.tokenizer kind key fields = .ok (false, w') →
    w'.opened = w.opened ∧ w'.advance = w.advance
  /-- Accepted, it opens one token and makes it the active one. -/
  accepted : ∀ w' o t, w.delegate mode rest n.tokenizer kind key fields = .ok (true, w') →
    n.run rest = .ok o → o.result = .ok t →
      w'.opened = { w.opened with entries := (key, w'.active) :: w.opened.entries } ∧
      w'.active.kind = kind ∧ w'.active.children = some t.tokens ∧
      w'.active.lexeme = .chars (rest.take t.consumed) ∧ w'.advance = t.consumed

theorem checkKey_eq_ok (h : key.isSome ↔ mode = .keyed) : Workspace.checkKey mode key = .ok () := by
  cases mode <;> cases key <;> simp_all [Workspace.checkKey]

/-- Where nothing is misused, the outcome of the other run decides on the answer. -/
theorem delegate_of_run {o : Outcome V T} (kind : Option Kind) (w : Workspace V T) (hkey : key.isSome ↔ mode = .keyed)
    (hfields : ∀ f ∈ fields, f.IsExtra) (ho : n.run rest = .ok o) :
    (∃ w', w.delegate mode rest n.tokenizer kind key fields = .ok (false, w') ∧
      ((∃ e, o.result = .error e) ∨ ∃ t, o.result = .ok t ∧ t.consumed = 0) ∧
      w'.opened = w.opened ∧ w'.advance = w.advance) ∨
    ∃ w' t, w.delegate mode rest n.tokenizer kind key fields = .ok (true, w') ∧ o.result = .ok t ∧ 0 < t.consumed ∧
      w'.opened = { w.opened with entries := (key, w'.active) :: w.opened.entries } ∧
      w'.active.kind = kind ∧ w'.active.children = some t.tokens ∧
      w'.active.lexeme = .chars (rest.take t.consumed) ∧ w'.advance = t.consumed := by
  have hrun : n.tokenizer.run rest = .ok o := ho
  obtain ⟨accepted, w', h⟩ := (Workspace.delegate_returns (checkKey_eq_ok hkey) hfields).1 o hrun
  obtain ⟨o', ho', hcases⟩ := Workspace.delegate_cases h
  obtain rfl : o = o' := Except.ok.inj (hrun.symm.trans ho')
  rcases hcases with ⟨rfl, hzero, hopened, hadvance⟩ | ⟨rfl, t, ht, hpos, -, hopened, hadvance⟩
  · refine .inl ⟨w', h, ?_, hopened, hadvance⟩
    cases hresult : o.result with
    | error e => exact .inl ⟨e, rfl⟩
    | ok t => exact .inr ⟨t, rfl, hzero t hresult⟩
  · have hactive : w'.active = Workspace.nestedToken rest kind fields t := by
      rw [Workspace.active, hopened]
      rfl
    have hextra := assign_extra hfields { kind := kind, children := some t.tokens }
    refine .inr ⟨w', t, h, ht, hpos, ?_⟩
    rw [hactive]
    exact ⟨hopened, hextra.1, hextra.2, rfl, hadvance⟩

theorem delegates (n : Scanner V τ T) (rest : List Char) (kind : Option Kind) (w : Workspace V T)
    (hkey : key.isSome ↔ mode = .keyed) (hfields : ∀ f ∈ fields, f.IsExtra) :
    Delegates mode n rest kind key fields w := by
  cases ho : n.run rest with
  | error e =>
    have h : w.delegate mode rest n.tokenizer kind key fields = .error e :=
      (Workspace.delegate_returns (checkKey_eq_ok hkey) hfields).2 e ho
    constructor <;> simp [h, ho]
  | ok o =>
    rcases delegate_of_run kind w hkey hfields ho with
      ⟨w', h, hresult, hopened, hadvance⟩ | ⟨w', t, h, ht, hpos, hopened, hactive⟩
    · have hzero : ∀ t, o.result = .ok t → t.consumed = 0 := by
        rintro t ht
        rcases hresult with ⟨e, he⟩ | ⟨t', ht', hzero⟩
        · cases he.symm.trans ht
        · cases ht'.symm.trans ht
          exact hzero
      constructor
      case accepts_iff =>
        simp only [h, ho, Except.ok.injEq, Prod.mk.injEq, Bool.false_eq_true, false_and, exists_false, false_iff]
        rintro ⟨o, t, rfl, ht, hpos⟩
        exact hpos.ne' (hzero t ht)
      case rejects_iff => exact ⟨fun _ => ⟨o, ho, hresult⟩, fun _ => ⟨w', h⟩⟩
      case fails_iff => simp [h, ho]
      case rejected =>
        rintro w₁ h₁
        obtain ⟨-, rfl⟩ := Prod.mk.inj (Except.ok.inj (h.symm.trans h₁))
        exact ⟨hopened, hadvance⟩
      case accepted => simp [h]
    · constructor
      case accepts_iff => exact ⟨fun _ => ⟨o, t, ho, ht, hpos⟩, fun _ => ⟨w', h⟩⟩
      case rejects_iff =>
        simp only [h, ho, Except.ok.injEq, Prod.mk.injEq, Bool.true_eq_false, false_and, exists_false, false_iff]
        rintro ⟨o, rfl, ⟨e, he⟩ | ⟨t', ht', hzero⟩⟩
        · cases he.symm.trans ht
        · cases ht'.symm.trans ht
          exact hpos.ne' hzero
      case fails_iff => simp [h, ho]
      case rejected => simp [h]
      case accepted =>
        rintro w₁ o₁ t₁ h₁ ho₁ ht₁
        obtain ⟨-, rfl⟩ := Prod.mk.inj (Except.ok.inj (h.symm.trans h₁))
        cases ho.symm.trans ho₁
        cases ht.symm.trans ht₁
        exact ⟨hopened, hactive⟩

end Single

/-! ## Order -/

/-- The token of one has been opened before that of the other, and its characters end before. -/
def Delegation.Precedes (d e : Delegation V T) : Prop := d.rank < e.rank ∧ d.stop ≤ e.start

/-- A script that accepts at most one delegation, and does not end the run if it does. -/
structure Script.Orderly (mode : Mode) (cursor : Cursor) (script : Script V (Verdict σ) T) (w : Workspace V T) :
    Prop where
  length_le : (script.delegations mode cursor w).length ≤ 1
  moves_on : ∀ w', script.exec mode cursor w = .ok (.finish, w') → script.delegations mode cursor w = []

/-- A step that delegates at most once, and moves on if it does. -/
def Call.Orderly (k : Call V σ T) (m : Scanner V σ T) (text : List Char) : Prop :=
  (m.behaviour k.state k.char).Orderly m.mode ⟨text, k.index, k.rest⟩ { k.workspace with skip := 0 }

namespace Scanner

/-! ## Transformers -/

/-- Tokens under their keys, but for what they spell. -/
def unspelled (entries : List (Option String × Token V T)) : List (Option String × Token V T) :=
  entries.map fun e => (e.1, { e.2 with lexeme := .chars [] })

theorem changeLatest_respells {key : String} {f : Transformer T} {entries entries' : List (Option String × Token V T)}
    (h : Opened.changeLatest key f entries = .ok entries') :
    unspelled entries' = unspelled entries := by
  induction entries generalizing entries' with
  | nil =>
    cases h
    rfl
  | cons e entries ih =>
    obtain ⟨k, t⟩ := e
    unfold Opened.changeLatest at h
    split at h
    · cases hf : f t.lexeme with
      | error e => simp [hf, bind, Except.bind] at h
      | ok l =>
        simp only [hf, bind, Except.bind, pure, Except.pure, Except.ok.injEq] at h
        subst h
        rfl
    · cases hrest : Opened.changeLatest key f entries with
      | error e => simp [hrest, bind, Except.bind] at h
      | ok rest =>
        simp only [hrest, bind, Except.bind, pure, Except.pure, Except.ok.injEq] at h
        subst h
        exact congrArg ((k, { t with lexeme := .chars [] }) :: ·) (ih hrest)

/-- Transformers change what the tokens of their own run spell. Children are tokens of other runs. -/
theorem transform_respells {transformers : List (String × Transformer T)}
    {entries entries' : List (Option String × Token V T)} (h : transform entries transformers = .ok entries') :
    unspelled entries' = unspelled entries := by
  induction transformers generalizing entries with
  | nil =>
    cases h
    rfl
  | cons p transformers ih =>
    obtain ⟨key, f⟩ := p
    unfold transform at h
    cases hchange : Opened.changeLatest key f entries with
    | error e => simp [hchange, bind, Except.bind] at h
    | ok changed =>
      simp only [hchange, bind, Except.bind] at h
      rw [ih h, changeLatest_respells hchange]

/-! ## The slices of a run -/

variable {m : Scanner V σ T} {text : List Char} {k k' : Call V σ T} {calls : List (Call V σ T)} {o : Outcome V T}
  {t : Tokenization V T}

theorem finish_of_turn (h : m.turn text k = .inr (.ok o)) (ht : o.result = .ok t) :
    ∃ w, k.answer m text = .ok (.finish, w) ∧ m.succeed text k.index w = .ok o := by
  rcases turn_over h with hfinish | ⟨e, he, -⟩
  · exact hfinish
  · rw [ht] at he
    cases he

theorem Runs.mem_next {r : Except Misuse (Outcome V T)} {c : Call V σ T} (h : Runs m text k calls r) (hc : c ∈ calls)
    (hturn : m.turn text c = .inl k') : k' ∈ calls := by
  induction h with
  | last hlast =>
    rw [List.mem_singleton.1 hc, hlast] at hturn
    cases hturn
  | next hnext hrest ih =>
    rcases List.mem_cons.1 hc with rfl | hc
    · rw [hnext] at hturn
      obtain rfl := Sum.inl.inj hturn
      obtain ⟨calls', rfl⟩ := hrest.exists_cons
      simp
    · exact List.mem_cons_of_mem _ (ih hc)

/-- The next state is called where the slice that was delegated last ends, or else on the next character. -/
theorem index_of_turn (h : m.turn text k = .inl k') :
    k'.index = ((k.delegations m text).getLast?.map Delegation.stop).getD (k.index + 1) := by
  obtain ⟨verdict, w, state, hanswer, -, -, -, rfl⟩ := turn_next h
  simp only [Call.next]
  rw [advance_answer hanswer]
  cases hlast : (k.delegations m text).getLast? with
  | none => rfl
  | some d =>
    have hstart := ((advances_answer hanswer).takes d (List.mem_of_getLast? hlast)).1
    rw [Option.map_some, Option.map_some, Option.getD_some, Option.getD_some, Delegation.stop, hstart]

/-- What the steps of a run have delegated, one after the other. -/
def delegated (m : Scanner V σ T) (text : List Char) (calls : List (Call V σ T)) : List (Delegation V T) :=
  calls.flatMap fun k => k.delegations m text

/-- What has been delegated in orderly steps lies in the order in which the tokens were opened, one slice after
the other, from the cursor up to the end. -/
theorem Runs.inOrder (h : Runs m text k calls (.ok o)) (ht : o.result = .ok t)
    (horderly : ∀ c ∈ calls, c.Orderly m text) :
    k.index ≤ t.consumed ∧ (m.delegated text calls).Pairwise Delegation.Precedes ∧
      ∀ d ∈ m.delegated text calls, k.index ≤ d.start ∧ k.workspace.count ≤ d.rank ∧ d.stop ≤ t.consumed := by
  generalize hr : (Except.ok o : Except Misuse (Outcome V T)) = r at h
  induction h with
  | @last k r hturn =>
    subst hr
    obtain ⟨w, hanswer, -⟩ := finish_of_turn hturn ht
    have hconsumed := reports_of_turn hturn
    rw [ht] at hconsumed
    have hnone : k.delegations m text = [] := (horderly _ (List.mem_singleton_self _)).moves_on w hanswer
    rw [delegated, List.flatMap_singleton, hnone]
    exact ⟨Nat.le_of_eq hconsumed.symm, .nil, by simp⟩
  | @next k k' calls r hturn hrest ih =>
    obtain ⟨hle, hpairs, hbounds⟩ := ih (fun c hc => horderly c (List.mem_cons_of_mem _ hc)) hr
    obtain ⟨verdict, w, state, hanswer, -, -, -, rfl⟩ := turn_next hturn
    have hindex := index_of_turn hturn
    have hlt := index_lt_of_turn hturn
    have hadvances := advances_answer hanswer
    have hcount : k.workspace.count ≤ w.count := hadvances.count_le
    have hlength : (k.delegations m text).length ≤ 1 := (horderly k List.mem_cons_self).length_le
    rw [delegated, List.flatMap_cons]
    match hds : k.delegations m text, hlength with
    | [], _ =>
      refine ⟨by omega, hpairs, fun e he => ?_⟩
      obtain ⟨hstart, hrank, hstop⟩ := hbounds e he
      exact ⟨by omega, Nat.le_trans hcount hrank, hstop⟩
    | [d], _ =>
      have hd : d ∈ k.delegations m text := by simp [hds]
      have hopened := hadvances.opened d hd
      have hstart := (hadvances.takes d hd).1
      have hstop : (k.next w state).index = d.stop := by
        rw [hindex, hds]
        rfl
      rw [List.singleton_append]
      refine ⟨by omega, List.pairwise_cons.2 ⟨fun e he => ?_, hpairs⟩, fun e he => ?_⟩
      · obtain ⟨hafter, hrank, -⟩ := hbounds e he
        exact ⟨Nat.lt_of_lt_of_le hopened.2 hrank, by omega⟩
      · rcases List.mem_cons.1 he with rfl | he
        · exact ⟨Nat.le_of_eq hstart.symm, hopened.1, by omega⟩
        · obtain ⟨hafter, hrank, hend⟩ := hbounds e he
          exact ⟨by omega, Nat.le_trans hcount hrank, hend⟩

end Scanner

/-! ## The scanner of expressions -/

namespace Lexer

variable {mode : Mode} {cursor : Cursor}

theorem delegations_take (kind : Kind) (fields : List (Field V)) (next : State) (w : Workspace V) :
    (take kind fields next).delegations mode cursor w = [] := by
  simp only [take, Script.delegations]
  split
  · split <;> rfl
  · rfl

theorem delegations_other (c : Option Char) (w : Workspace V) : (other c).delegations mode cursor w = [] := by
  cases c with
  | none => rfl
  | some c =>
    simp only [other]
    split
    · exact delegations_take _ _ _ w
    split
    · exact delegations_take _ _ _ w
    split
    · exact delegations_take _ _ _ w
    split
    · rfl
    · exact delegations_take _ _ _ w

theorem orderly_other (c : Option Char) (w : Workspace V) : (other c).Orderly mode cursor w := by
  have hnone : (other c).delegations mode cursor w = [] := delegations_other c w
  exact ⟨by simp [hnone], fun _ _ => hnone⟩

section Numbers

variable [DigitLimit]

theorem orderly_number (c : Option Char) (w : Workspace V) : (number c).Orderly mode cursor w := by
  unfold number
  constructor
  case length_le =>
    simp only [Script.delegations]
    split
    · exact Nat.le_refl 1
    · rename_i w₁ _
      exact (orderly_other c w₁).length_le
    · exact Nat.zero_le 1
  case moves_on =>
    intro w' hfinish
    simp only [Script.delegations, Script.exec] at hfinish ⊢
    cases h : w.delegate mode cursor.rest Literal.scanner.tokenizer (some .number) none [] with
    | error e => rfl
    | ok p =>
      obtain ⟨accepted, w₁⟩ := p
      rw [h] at hfinish
      cases accepted with
      | true => cases hfinish
      | false => exact (orderly_other c w₁).moves_on w' hfinish

theorem orderly_betweenTokens (c : Option Char) (w : Workspace V) :
    (betweenTokens c).Orderly mode cursor w := by
  unfold betweenTokens
  split
  · exact orderly_number c w
  split
  · have hlook (due : Bool) : (if due then number c else other c).Orderly mode cursor w := by
      cases due with
      | true => exact orderly_number c w
      | false => exact orderly_other c w
    have h := hlook (expectsOperand w.opened.active)
    exact ⟨h.length_le, h.moves_on⟩
  · exact orderly_other c w

theorem orderly_inName (c : Option Char) (w : Workspace V) : (inName c).Orderly mode cursor w := by
  unfold inName
  split
  · have hlook (found : Bool) : Script.Orderly mode cursor
        (if found then .update [.kind (some .function)] (betweenTokens c) else betweenTokens c) w := by
      cases found with
      | true =>
        have h : (betweenTokens c).Orderly mode cursor (w.assign [.kind (some .function)]) :=
          orderly_betweenTokens c _
        exact ⟨h.length_le, h.moves_on⟩
      | false => exact orderly_betweenTokens c w
    have h := hlook (function? w.opened.active.text).isSome
    exact ⟨h.length_le, h.moves_on⟩
  · have hnone : (Script.eat (.done (Verdict.goto State.inName))).delegations mode cursor w = [] := by
      simp only [Script.delegations]
      split <;> rfl
    exact ⟨by simp [hnone], fun _ _ => hnone⟩

/-- A step of the scanner of expressions delegates one number, or none. -/
theorem orderly (text : List Char) (k : Call V State) : k.Orderly scanner text := by
  unfold Call.Orderly
  cases k.state with
  | betweenTokens => exact orderly_betweenTokens k.char _
  | inName => exact orderly_inName k.char _

end Numbers

end Lexer

namespace Scanner

/-! ## Whole runs -/

/-- What becomes of the delegations of a run with these calls. -/
structure KeepsDelegations (m : Scanner V σ T) (text : List Char) (calls : List (Call V σ T)) : Prop where
  /-- Each stands for a run of its own on the text from the cursor on. -/
  takes : ∀ k ∈ calls, ∀ verdict w, k.answer m text = .ok (verdict, w) →
    ∀ d ∈ k.delegations m text, d.Takes ⟨text, k.index, text.drop k.index⟩
  /-- If the step moves on, it is to where the slice that was delegated last ends. -/
  next : ∀ k ∈ calls, ∀ k', m.turn text k = .inl k' → k' ∈ calls ∧
    k'.index = ((k.delegations m text).getLast?.map Delegation.stop).getD (k.index + 1)
  /-- The transformers of the run reach no children. -/
  respelled : ∀ o t, m.run text = .ok o → o.result = .ok t →
    ∃ last w entries, calls.getLast? = some last ∧ last.answer m text = .ok (.finish, w) ∧
      t.tokens = { w.opened with entries := entries }.record m.mode ∧ unspelled entries = unspelled w.opened.entries
  inOrder : ∀ o t, m.run text = .ok o → o.result = .ok t → (∀ k ∈ calls, k.Orderly m text) →
    (m.delegated text calls).Pairwise Delegation.Precedes ∧ ∀ d ∈ m.delegated text calls, d.stop ≤ t.consumed

/-- **Delegation is exact and atomic.** A step that delegates, with a key where one is due and no field that
delegation sets itself, is answered true if the other scanner, run by itself on the text from the cursor on,
consumes something, and false if that run fails or consumes nothing; then nothing has changed. If it is
answered true one token has been opened, with the tokens of that run as children and the slice consumed as
what it spells; if the step moves on, the next state is called at the end of the slice that was delegated
last. In the tokens of a run that ends well its own transformers have changed nothing but what they spell
themselves; and if its steps delegate at most once each, and move on, the slices lie one after the other in
the order in which their tokens were opened, all before the end of what was consumed. -/
theorem delegation_exact (m : Scanner V σ T) (text : List Char) :
    (∀ (τ : Type) (n : Scanner V τ T) (i : Nat) (kind : Option Kind) (key : Option String) (fields : List (Field V T))
      (w : Workspace V T), (key.isSome ↔ m.mode = .keyed) → (∀ f ∈ fields, f.IsExtra) →
        Delegates m.mode n (text.drop i) kind key fields w) ∧
      ∃ calls, Runs m text (m.firstCall text) calls (m.run text) ∧ KeepsDelegations m text calls := by
  refine ⟨fun τ n i kind key fields w => delegates n (text.drop i) kind w, ?_⟩
  obtain ⟨calls, hruns⟩ := exists_runs m text (m.firstCall text)
  have hplaced := hruns.placed (placed_firstCall m text)
  refine ⟨calls, hruns, ?_⟩
  constructor
  case takes =>
    intro k hk verdict w hanswer d hd
    rw [← (hplaced k hk).rest_eq]
    exact (advances_answer hanswer).takes d hd
  case next => exact fun k hk k' hturn => ⟨hruns.mem_next hk hturn, index_of_turn hturn⟩
  case respelled =>
    intro o t ho ht
    obtain ⟨last, hlast, hturn⟩ := hruns.exists_last
    obtain ⟨w, hanswer, hsucceed⟩ := finish_of_turn (hturn.trans (congrArg Sum.inr ho)) ht
    obtain ⟨entries, htransform, hresult⟩ := succeed_eq_ok hsucceed
    rw [ht] at hresult
    refine ⟨last, w, entries, hlast, hanswer, ?_, transform_respells htransform⟩
    rw [Except.ok.inj hresult]
  case inOrder =>
    intro o t ho ht horderly
    have hrun : (m.firstCall text).result m text = .ok o := ho
    rw [hrun] at hruns
    obtain ⟨-, hpairs, hbounds⟩ := hruns.inOrder ht horderly
    exact ⟨hpairs, fun d hd => (hbounds d hd).2.2⟩

/-- In `7*-(25` a sign stands where an operand is due. It starts no number, and its delegation is rejected; the
two numbers are taken, one slice after the other. -/
theorem delegation_exact_numbers :
    let _ : DigitLimit := .standard
    let m : Scanner Unit Lexer.State := Lexer.scanner
    let n : Scanner Unit Literal.State := Literal.scanner
    let text := ['7', '*', '-', '(', '2', '5']
    let w : Workspace Unit := {}
    (∃ w', w.delegate m.mode (text.drop 2) n.tokenizer (some .number) none [] = .ok (false, w') ∧
      w'.opened = w.opened ∧ w'.advance = w.advance) ∧
    (∃ w', w.delegate m.mode (text.drop 4) n.tokenizer (some .number) none [] = .ok (true, w') ∧
      w'.active.lexeme = .chars ['2', '5'] ∧ w'.advance = 2) ∧
    ∃ calls o t, Runs m text (m.firstCall text) calls (.ok o) ∧ o.result = .ok t ∧
      (∀ k ∈ calls, k.Orderly m text) ∧ (m.delegated text calls).Pairwise Delegation.Precedes ∧
      ∀ d ∈ m.delegated text calls, d.stop ≤ t.consumed := by
  intro limit m n text w
  obtain ⟨hsingle, calls, hruns, hkeeps⟩ := delegation_exact m text
  have hdelegates (i : Nat) : Delegates m.mode n (text.drop i) (some .number) none [] w :=
    hsingle Literal.State n i (some .number) none [] w (by decide) (by simp)
  refine ⟨?_, ?_, ?_⟩
  · obtain ⟨w', h⟩ := (hdelegates 2).rejects_iff.2 ⟨_, rfl, .inl ⟨_, rfl⟩⟩
    exact ⟨w', h, (hdelegates 2).rejected w' h⟩
  · obtain ⟨o, t, ho, ht, hconsumed⟩ :
        ∃ o t, n.run ['2', '5'] = .ok o ∧ o.result = .ok t ∧ t.consumed = 2 := ⟨_, _, rfl, rfl, rfl⟩
    obtain ⟨w', h⟩ := (hdelegates 4).accepts_iff.2 ⟨o, t, ho, ht, by omega⟩
    obtain ⟨-, -, -, hlexeme, hadvance⟩ := (hdelegates 4).accepted w' o t h ho ht
    rw [hconsumed] at hlexeme hadvance
    exact ⟨w', h, hlexeme, hadvance⟩
  · obtain ⟨ss, hcut⟩ := Lexer.exists_cut true text
    have hscan : ∀ s ∈ ss, s.Scannable := fun s hs => (hcut.readable (by decide) s hs).scannable
    obtain ⟨o, ho, ht⟩ := Lexer.run_cut (V := Unit) hcut hscan
    have horderly : ∀ k ∈ calls, k.Orderly m text := fun k _ => Lexer.orderly text k
    obtain ⟨hpairs, hwithin⟩ := hkeeps.inOrder o _ ho ht horderly
    exact ⟨calls, o, _, ho ▸ hruns, ht, horderly, hpairs, hwithin⟩

end Scanner

end Reckoner
