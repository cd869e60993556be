import Reckoner.Scanner.Run

/-!
# What a step does to the workspace

A step moves the cursor on by one character, or by what the last nested scan that it accepted has consumed.
The accepted delegations of a step are read off its script (`Script.delegations`). What single actions do is
said by one lemma each (`openToken_eq_ok`, `eat_eq_ok`, `update_eq_ok`, `delegate_cases`), and what a whole
script does follows by induction on it (`advances_exec`).
-/
namespace Reckoner

variable {V T α : Type}

/-! ## Tokens to be opened -/

/-- A field that a delegation may be given: what it sets itself is left out. -/
def Field.IsExtra : Field V T → Prop
  | .lexeme _ | .closing _ | .value _ => True
  | .kind _ | .children _ | .unknown _ => False

theorem assign_extra {fields : List (Field V T)} (h : ∀ f ∈ fields, f.IsExtra) (t : Token V T) :
    (t.assign fields).kind = t.kind ∧ (t.assign fields).children = t.children := by
  induction fields generalizing t with
  | nil => exact ⟨rfl, rfl⟩
  | cons f fields ih =>
    have hrest : ∀ g ∈ fields, g.IsExtra := fun g hg => h g (List.mem_cons_of_mem f hg)
    have hf : f.IsExtra := h f List.mem_cons_self
    cases f with
    | lexeme l => exact ih hrest (t.set (.lexeme l))
    | closing b => exact ih hrest (t.set (.closing b))
    | value v => exact ih hrest (t.set (.value v))
    | kind _ => cases hf
    | children _ => cases hf
    | unknown _ => cases hf

namespace Workspace

variable {mode : Mode} {kind : Option Kind} {key : Option String} {fields : List (Field V T)}
  {w w' : Workspace V T}

/-- How far the cursor moves on after the step. -/
def advance (w : Workspace V T) : Nat := w.skip + 1

def count (w : Workspace V T) : Nat := w.opened.entries.length

/-! ## Single actions -/

theorem refuse_eq_ok_iff (isRefused? : Field V T → Option String) :
    refuse isRefused? fields = .ok () ↔ ∀ f ∈ fields, isRefused? f = none := by
  unfold refuse
  rw [← List.findSome?_eq_none_iff]
  split
  · rename_i name h
    simp [h]
  · rename_i h
    simp [h]

theorem openToken_eq_ok_iff : w.openToken mode kind key fields = .ok w' ↔
    refuse givenApart? fields = .ok () ∧ checkKey mode key = .ok () ∧
      refuse Field.unknown? fields = .ok () ∧
      w' = { w with opened := { w.opened with
        entries := (key, Token.assign { kind := kind } fields) :: w.opened.entries } } := by
  unfold openToken
  cases refuse givenApart? fields <;> cases checkKey mode key <;> cases refuse Field.unknown? fields <;>
    simp [bind, Except.bind, pure, Except.pure, eq_comm]

theorem count_modifyActive (f : Token V T → Token V T) (w : Workspace V T) : (w.modifyActive f).count = w.count := by
  unfold count modifyActive Opened.modifyActive
  cases w.opened.entries with
  | nil => rfl
  | cons e entries => rfl

theorem eat_eq_ok {c : Option Char} (h : w.eat c = .ok w') : ∃ f, w' = w.modifyActive f := by
  unfold eat at h
  split at h
  · cases h
  · exact ⟨_, (Except.ok.inj h).symm⟩
  · cases h

theorem update_eq_ok (h : w.update fields = .ok w') : ∃ f, w' = w.modifyActive f := by
  unfold update at h
  split at h
  · cases h
  · exact ⟨_, (Except.ok.inj h).symm⟩

/-! ## Delegation -/

variable {rest : List Char} {nested : Tokenizer V T} {accepted : Bool}

/-- The token that a delegation opens: it spells what the nested scan consumed and has the tokens of that
scan as its children. -/
def nestedToken (rest : List Char) (kind : Option Kind) (fields : List (Field V T)) (t : Tokenization V T) :
    Token V T :=
  { Token.assign { kind := kind, children := some t.tokens } fields with
    lexeme := .chars (rest.take t.consumed) }

/-- A delegation answers what the nested scan of the rest, run by itself, comes to. Rejected, it changes
nothing but the log; accepted, it opens one token and moves the cursor past what the scan consumed. -/
theorem delegate_cases (h : w.delegate mode rest nested kind key fields = .ok (accepted, w')) :
    ∃ o, nested.run rest = .ok o ∧
      (accepted = false ∧ (∀ t, o.result = .ok t → t.consumed = 0) ∧ w'.opened = w.opened ∧
          w'.advance = w.advance ∨
        accepted = true ∧ ∃ t, o.result = .ok t ∧ 0 < t.consumed ∧ (∀ f ∈ fields, f.IsExtra) ∧
          w'.opened = { w.opened with
            entries := (key, nestedToken rest kind fields t) :: w.opened.entries } ∧
          w'.advance = t.consumed) := by
  unfold delegate at h
  cases hgiven : refuse givenApart? fields with
  | error e => simp [hgiven, bind, Except.bind] at h
  | ok _ =>
    cases hrun : nested.run rest with
    | error e => simp [hgiven, hrun, bind, Except.bind] at h
    | ok o =>
      refine ⟨o, rfl, ?_⟩
      simp only [hgiven, hrun, bind, Except.bind, pure, Except.pure] at h
      cases hresult : o.result with
      | error e =>
        simp only [hresult, Except.ok.injEq, Prod.mk.injEq] at h
        obtain ⟨rfl, rfl⟩ := h
        exact .inl ⟨rfl, fun t ht => by simp at ht, rfl, rfl⟩
      | ok t =>
        simp only [hresult] at h
        by_cases hzero : t.consumed = 0
        · simp only [hzero, if_true, Except.ok.injEq, Prod.mk.injEq] at h
          obtain ⟨rfl, rfl⟩ := h
          exact .inl ⟨rfl, fun t' ht => by cases ht; exact hzero, rfl, rfl⟩
        · simp only [hzero, if_false] at h
          cases hnested : refuse nestedTokens? fields with
          | error e => simp [hnested] at h
          | ok _ =>
            simp only [hnested] at h
            split at h
            · cases h
            · rename_i w₁ hopen
              obtain ⟨-, -, hunknown, rfl⟩ := openToken_eq_ok_iff.1 hopen
              simp only [Except.ok.injEq, Prod.mk.injEq] at h
              obtain ⟨rfl, rfl⟩ := h
              rw [refuse_eq_ok_iff] at hgiven hnested hunknown
              refine .inr ⟨rfl, t, rfl, by omega, fun f hf => ?_, rfl, ?_⟩
              · have hg := hgiven f hf
                have hn := hnested f hf
                have hu := hunknown f (List.mem_cons_of_mem _ hf)
                cases f <;> simp_all [givenApart?, nestedTokens?, Field.unknown?, Field.IsExtra]
              · simp only [advance]
                omega

/-- With a key where one is due and no field that it sets itself, a delegation returns whenever the nested
scan does, and otherwise fails as that does. -/
theorem delegate_returns (hkey : checkKey mode key = .ok ()) (hfields : ∀ f ∈ fields, f.IsExtra) :
    (∀ o, nested.run rest = .ok o →
        ∃ accepted w', w.delegate mode rest nested kind key fields = .ok (accepted, w')) ∧
      ∀ e, nested.run rest = .error e → w.delegate mode rest nested kind key fields = .error e := by
  have hrefuse (isRefused? : Field V T → Option String) (h : ∀ f : Field V T, f.IsExtra → isRefused? f = none) :
      refuse isRefused? fields = .ok () := (refuse_eq_ok_iff isRefused?).2 fun f hf => h f (hfields f hf)
  have hgiven : refuse givenApart? fields = .ok () := hrefuse _ fun f hf => by
    cases f <;> simp_all [Field.IsExtra, givenApart?]
  have hnested : refuse nestedTokens? fields = .ok () := hrefuse _ fun f hf => by
    cases f <;> simp_all [Field.IsExtra, nestedTokens?]
  have hunknown : refuse Field.unknown? fields = .ok () := hrefuse _ fun f hf => by
    cases f <;> simp_all [Field.IsExtra, Field.unknown?]
  constructor
  · intro o hrun
    simp only [delegate, hgiven, hrun, bind, Except.bind, pure, Except.pure]
    cases hresult : o.result with
    | error e => exact ⟨false, _, rfl⟩
    | ok t =>
      by_cases hzero : t.consumed = 0
      · exact ⟨false, _, if_pos hzero⟩
      · have hopen (w : Workspace V T) : w.openToken mode kind key (.children (some t.tokens) :: fields) = .ok _ :=
          openToken_eq_ok_iff.2 ⟨?_, hkey, ?_, rfl⟩
        · simp only [hzero, if_false, hnested, hopen]
          exact ⟨true, _, rfl⟩
        · rw [refuse_eq_ok_iff] at hgiven ⊢
          exact List.forall_mem_cons.2 ⟨rfl, hgiven⟩
        · rw [refuse_eq_ok_iff] at hunknown ⊢
          exact List.forall_mem_cons.2 ⟨rfl, hunknown⟩
  · intro e hrun
    simp only [delegate, hgiven, hrun, bind, Except.bind]

end Workspace

/-! ## The delegations of a step -/

structure Delegation (V : Type) (T : Type := Int) where
  nested : Tokenizer V T
  /-- Where the cursor stood. -/
  start : Nat
  consumed : Nat
  /-- How many tokens had been opened before. -/
  rank : Nat
  /-- The token that was opened. -/
  token : Token V T

/-- Where the characters that it took end. -/
def Delegation.stop (d : Delegation V T) : Nat := d.start + d.consumed

/-- It stands for what its scanner, run by itself, makes of the rest of the text. -/
def Delegation.Takes (cursor : Cursor) (d : Delegation V T) : Prop :=
  d.start = cursor.index ∧ ∃ o t, d.nested.run cursor.rest = .ok o ∧ o.result = .ok t ∧
    0 < t.consumed ∧ d.consumed = t.consumed ∧ d.token.children = some t.tokens ∧
    d.token.lexeme = .chars (cursor.rest.take t.consumed)

theorem Delegation.Takes.consumed_le {cursor : Cursor} {d : Delegation V T} (h : d.Takes cursor) :
    d.consumed ≤ cursor.rest.length := by
  obtain ⟨-, o, t, hrun, ht, -, hconsumed, -⟩ := h
  rw [hconsumed]
  exact d.nested.consumed_le _ _ _ hrun ht

namespace Script

variable {mode : Mode} {cursor : Cursor}

/-- The delegations that are accepted while a script is performed, in order. -/
def delegations (mode : Mode) (cursor : Cursor) : Script V α T → Workspace V T → List (Delegation V T)
  | done _, _ => []
  | openToken kind key fields next, w =>
    match w.openToken mode kind key fields with
    | .ok w => next.delegations mode cursor w
    | .error _ => []
  | eat next, w =>
    match w.eat cursor.char with
    | .ok w => next.delegations mode cursor w
    | .error _ => []
  | update fields next, w =>
    match w.update fields with
    | .ok w => next.delegations mode cursor w
    | .error _ => []
  | peek offset next, w =>
    match cursor.peek offset with
    | .ok c => (next c).delegations mode cursor w
    | .error _ => []
  | look next, w => (next w.opened).delegations mode cursor w
  | delegate nested kind key fields next, w =>
    match w.delegate mode cursor.rest nested kind key fields with
    | .ok (true, w') =>
      ⟨nested, cursor.index, w'.advance, w.count, w'.active⟩ :: (next true).delegations mode cursor w'
    | .ok (false, w') => (next false).delegations mode cursor w'
    | .error _ => []
  | note n next, w => next.delegations mode cursor (w.record (.note n))
  | abort _, _ => []

/-- What a script does to the workspace, accepting delegations on the way: the last of them decides how far
the cursor moves on, and each has opened its token after those of the earlier ones. -/
structure Advances (cursor : Cursor) (ds : List (Delegation V T)) (w w' : Workspace V T) : Prop where
  advance_eq : w'.advance = (ds.getLast?.map Delegation.consumed).getD w.advance
  count_le : w.count ≤ w'.count
  ranks : ds.Pairwise fun d e => d.rank < e.rank
  opened : ∀ d ∈ ds, w.count ≤ d.rank ∧ d.rank < w'.count
  takes : ∀ d ∈ ds, d.Takes cursor

variable {ds : List (Delegation V T)} {w w₁ w' : Workspace V T}

theorem Advances.nil (w : Workspace V T) : Advances cursor [] w w where
  advance_eq := rfl
  count_le := Nat.le_refl _
  ranks := .nil
  opened := by simp
  takes := by simp

/-- An action that is no accepted delegation leaves the cursor to what follows. -/
theorem Advances.after (h : Advances cursor ds w₁ w') (hadvance : w₁.advance = w.advance)
    (hcount : w.count ≤ w₁.count) : Advances cursor ds w w' where
  advance_eq := by rw [← hadvance, h.advance_eq]
  count_le := Nat.le_trans hcount h.count_le
  ranks := h.ranks
  opened d hd := ⟨Nat.le_trans hcount (h.opened d hd).1, (h.opened d hd).2⟩
  takes := h.takes

theorem Advances.accept {d : Delegation V T} (h : Advances cursor ds w₁ w') (hd : d.Takes cursor)
    (hadvance : w₁.advance = d.consumed) (hrank : d.rank = w.count) (hcount : w₁.count = w.count + 1) :
    Advances cursor (d :: ds) w w' where
  advance_eq := by
    rw [h.advance_eq, hadvance, List.getLast?_cons]
    cases ds.getLast? with
    | none => rfl
    | some e => rfl
  count_le := by
    have := h.count_le
    omega
  ranks := by
    refine List.pairwise_cons.2 ⟨fun e he => ?_, h.ranks⟩
    have := (h.opened e he).1
    omega
  opened e he := by
    have hle := h.count_le
    rcases List.mem_cons.1 he with rfl | he
    · omega
    · have := h.opened e he
      omega
  takes e he := by
    rcases List.mem_cons.1 he with rfl | he
    · exact hd
    · exact h.takes e he

/-- What a whole step does follows from what its actions do. -/
theorem advances_exec {a : α} (script : Script V α T) (h : script.exec mode cursor w = .ok (a, w')) :
    Advances cursor (script.delegations mode cursor w) w w' := by
  induction script generalizing w with
  | done b =>
    cases h
    exact .nil _
  | openToken kind key fields next ih =>
    cases hopen : w.openToken mode kind key fields with
    | error e => simp [exec, hopen, bind, Except.bind] at h
    | ok w₁ =>
      simp only [exec, hopen, bind, Except.bind] at h
      simp only [delegations, hopen]
      obtain ⟨-, -, -, rfl⟩ := Workspace.openToken_eq_ok_iff.1 hopen
      exact (ih h).after rfl (Nat.le_succ _)
  | eat next ih =>
    cases heat : w.eat cursor.char with
    | error e => simp [exec, heat, bind, Except.bind] at h
    | ok w₁ =>
      simp only [exec, heat, bind, Except.bind] at h
      simp only [delegations, heat]
      obtain ⟨f, rfl⟩ := Workspace.eat_eq_ok heat
      exact (ih h).after rfl (Nat.le_of_eq (Workspace.count_modifyActive f w).symm)
  | update fields next ih =>
    cases hupdate : w.update fields with
    | error e => simp [exec, hupdate, bind, Except.bind] at h
    | ok w₁ =>
      simp only [exec, hupdate, bind, Except.bind] at h
      simp only [delegations, hupdate]
      obtain ⟨f, rfl⟩ := Workspace.update_eq_ok hupdate
      exact (ih h).after rfl (Nat.le_of_eq (Workspace.count_modifyActive f w).symm)
  | peek offset next ih =>
    cases hpeek : cursor.peek offset with
    | error e => simp [exec, hpeek, bind, Except.bind] at h
    | ok c =>
      simp only [exec, hpeek, bind, Except.bind] at h
      simp only [delegations, hpeek]
      exact ih c h
  | look next ih => exact ih w.opened h
  | delegate nested kind key fields next ih =>
    cases hdelegate : w.delegate mode cursor.rest nested kind key fields with
    | error e => simp [exec, hdelegate, bind, Except.bind] at h
    | ok p =>
      obtain ⟨accepted, w₁⟩ := p
      simp only [exec, hdelegate, bind, Except.bind] at h
      obtain ⟨o, hrun, ⟨rfl, -, hopened, hadvance⟩ | ⟨rfl, t, ht, hpos, hfields, hopened, hadvance⟩⟩ :=
        Workspace.delegate_cases hdelegate
      · simp only [delegations, hdelegate]
        exact (ih false h).after hadvance (Nat.le_of_eq (by rw [Workspace.count, Workspace.count, hopened]))
      · simp only [delegations, hdelegate]
        have hactive : w₁.active = Workspace.nestedToken cursor.rest kind fields t := by
          rw [Workspace.active, hopened]
          rfl
        refine (ih true h).accept ⟨rfl, o, t, hrun, ht, hpos, hadvance, ?_, ?_⟩ rfl rfl ?_
        · rw [hactive]
          exact (assign_extra hfields _).2
        · rw [hactive]
          rfl
        · rw [Workspace.count, Workspace.count, hopened, List.length_cons]
  | note n next ih => exact (ih h).after rfl (Nat.le_refl _)
  | abort m => cases h

end Script

end Reckoner
