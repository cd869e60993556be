import Reckoner.Proofs.Scanner.Actions
import Reckoner.Proofs.Scanner.Steps

/-!
# The calls of a run

A run calls states, one after the other, and between two calls it moves the cursor on by what the step has
asked for (`turn`). The calls of a run are determined by its scanner and its text (`Runs.unique`), and there
are only finitely many of them, whatever the states do (`exists_runs`): a nested scan cannot consume more than
the rest of the text (`advance_le`). Main theorem `run_keeps_cursor`.
-/
namespace Reckoner

variable {V σ T : Type}

/-- A call of a state: where in the text, and what the state finds in the workspace. -/
structure Call (V σ : Type) (T : Type := Int) where
  index : Nat
  /-- The text from there on. -/
  rest : List Char
  state : σ
  workspace : Workspace V T

namespace Call

/-- The character that the state is called with, none at the end. -/
def char (k : Call V σ T) : Option Char := k.rest.head?

/-- What the state answers, and the workspace that it leaves. -/
def answer (k : Call V σ T) (m : Scanner V σ T) (text : List Char) : Except Misuse (Verdict σ × Workspace V T) :=
  m.call text k.index k.rest k.state k.workspace

def delegations (k : Call V σ T) (m : Scanner V σ T) (text : List Char) : List (Delegation V T) :=
  (m.behaviour k.state k.char).delegations m.mode ⟨text, k.index, k.rest⟩ { k.workspace with skip := 0 }

/-- The call of the next state, on the character to which the step has moved the cursor. -/
def next (k : Call V σ T) (w : Workspace V T) (state : σ) : Call V σ T :=
  ⟨k.index + w.advance, k.rest.drop w.advance, state, w⟩

/-- What a run comes to from this call on. -/
def result (k : Call V σ T) (m : Scanner V σ T) (text : List Char) : Except Misuse (Outcome V T) :=
  m.runFrom text k.rest k.index 0 k.state k.workspace

/-- The rest is the text from the cursor on. -/
structure Placed (text : List Char) (k : Call V σ T) : Prop where
  index_le : k.index ≤ text.length
  rest_eq : k.rest = text.drop k.index

theorem Placed.char_eq {text : List Char} {k : Call V σ T} (hk : k.Placed text) : k.char = text[k.index]? := by
  rw [Call.char, hk.rest_eq, List.head?_drop]

theorem Placed.char_none {text : List Char} {k : Call V σ T} (hk : k.Placed text) :
    k.char = none ↔ k.index = text.length := by
  have hle := hk.index_le
  rw [hk.char_eq, List.getElem?_eq_none_iff]
  omega

end Call

namespace Scanner

variable {m : Scanner V σ T} {text : List Char} {k k' : Call V σ T} {w : Workspace V T} {verdict : Verdict σ}
  {r : Except Misuse (Outcome V T)}

/-! ## Single turns -/

/-- What follows a call: another one, or the end of the run. -/
def turn (m : Scanner V σ T) (text : List Char) (k : Call V σ T) : Call V σ T ⊕ Except Misuse (Outcome V T) :=
  match k.answer m text with
  | .error e => .inr (.error e)
  | .ok (verdict, w) =>
    match k.char with
    | none => .inr (m.atEnd text k.index w verdict)
    | some _ =>
      match verdict with
      | .finish => .inr (m.succeed text k.index w)
      | .fail reason => .inr (.ok (reject w (.unexpected text k.index reason)))
      | .goto state => .inl (k.next w state)
      | .gotoNamed name =>
        match m.named name with
        | none => .inr (.error (.noSuchState name))
        | some state => .inl (k.next w state)

/-- Where the cursor stands is decided by the delegations of the step. -/
theorem advances_answer (h : k.answer m text = .ok (verdict, w)) :
    Script.Advances ⟨text, k.index, k.rest⟩ (k.delegations m text) { k.workspace with skip := 0 } w :=
  Script.advances_exec _ h

/-- The cursor moves on by one character, or by what the last accepted delegation has taken. -/
theorem advance_answer (h : k.answer m text = .ok (verdict, w)) :
    w.advance = ((k.delegations m text).getLast?.map Delegation.consumed).getD 1 :=
  (advances_answer h).advance_eq

theorem advance_pos (w : Workspace V T) : 0 < w.advance := Nat.succ_pos w.skip

/-- No step moves the cursor past the end. -/
theorem advance_le (h : k.answer m text = .ok (verdict, w)) (hc : k.rest ≠ []) : w.advance ≤ k.rest.length := by
  rw [advance_answer h]
  cases hlast : (k.delegations m text).getLast? with
  | none => exact List.length_pos_iff.2 hc
  | some d => exact ((advances_answer h).takes d (List.mem_of_getLast? hlast)).consumed_le

/-- There is another call only if the state has been called before the end, and has not ended the run. -/
theorem turn_next (h : m.turn text k = .inl k') : ∃ verdict w state, k.answer m text = .ok (verdict, w) ∧
    (∀ reason, verdict ≠ .fail reason) ∧ verdict ≠ .finish ∧ k.rest ≠ [] ∧ k' = k.next w state := by
  unfold turn at h
  split at h
  · cases h
  · rename_i verdict w hanswer
    split at h
    · cases h
    · rename_i c hc
      have hne : k.rest ≠ [] := by
        intro hnil
        simp [Call.char, hnil] at hc
      cases verdict with
      | finish => cases h
      | fail reason => cases h
      | goto state => exact ⟨_, w, state, hanswer, by simp, by simp, hne, (Sum.inl.inj h).symm⟩
      | gotoNamed name =>
        simp only at h
        split at h
        · cases h
        · rename_i state _
          exact ⟨_, w, state, hanswer, by simp, by simp, hne, (Sum.inl.inj h).symm⟩

theorem rest_lt_of_turn (h : m.turn text k = .inl k') : k'.rest.length < k.rest.length := by
  obtain ⟨verdict, w, state, -, -, -, hne, rfl⟩ := turn_next h
  have hpos := List.length_pos_iff.2 hne
  have hadvance := advance_pos w
  simp only [Call.next, List.length_drop]
  omega

theorem index_lt_of_turn (h : m.turn text k = .inl k') : k.index < k'.index := by
  obtain ⟨verdict, w, state, -, -, -, -, rfl⟩ := turn_next h
  exact Nat.lt_add_of_pos_right (advance_pos w)

theorem placed_of_turn (h : m.turn text k = .inl k') (hk : k.Placed text) : k'.Placed text := by
  obtain ⟨verdict, w, state, hanswer, -, -, hne, rfl⟩ := turn_next h
  have hle := advance_le hanswer hne
  have hlength : k.rest.length = text.length - k.index := by rw [hk.rest_eq, List.length_drop]
  have hindex := hk.index_le
  refine ⟨?_, ?_⟩
  · simp only [Call.next]
    omega
  · simp only [Call.next]
    rw [hk.rest_eq, List.drop_drop]

/-- What a nested scan has consumed is passed over up to the next call. -/
theorem runFrom_advance {c : Char} {rest : List Char} {state : σ} (hrest : k.rest = c :: rest)
    (h : k.answer m text = .ok (verdict, w)) :
    m.runFrom text rest (k.index + 1) w.skip state w = (k.next w state).result m text := by
  have hle : w.skip ≤ rest.length := by
    have := advance_le h (by simp [hrest])
    simpa [Workspace.advance, hrest] using this
  have hpassed : m.runFrom text (rest.take w.skip ++ rest.drop w.skip) (k.index + 1) (rest.take w.skip).length state w =
      m.runFrom text (rest.drop w.skip) (k.index + 1 + (rest.take w.skip).length) 0 state w := runFrom_skip _
  rw [List.take_append_drop, List.length_take_of_le hle] at hpassed
  rw [hpassed, Call.result, Call.next, hrest, Workspace.advance, List.drop_succ_cons, Nat.add_right_comm,
    Nat.add_assoc]

/-- A run is its first turn, and then the run from the next call on. -/
theorem result_eq_turn (k : Call V σ T) :
    k.result m text = match m.turn text k with
      | .inl k' => k'.result m text
      | .inr r => r := by
  cases hrest : k.rest with
  | nil =>
    have hchar : k.char = none := by rw [Call.char, hrest]; rfl
    have hcall : m.call text k.index [] k.state k.workspace = k.answer m text := by rw [Call.answer, hrest]
    rw [Call.result, hrest, runFrom, hcall, turn, hchar]
    cases hanswer : k.answer m text with
    | error e => rfl
    | ok p => rfl
  | cons c rest =>
    have hchar : k.char = some c := by rw [Call.char, hrest]; rfl
    have hcall : m.call text k.index (c :: rest) k.state k.workspace = k.answer m text := by
      rw [Call.answer, hrest]
    rw [Call.result, hrest, runFrom, hcall, turn, hchar]
    cases hanswer : k.answer m text with
    | error e => rfl
    | ok p =>
      obtain ⟨verdict, w⟩ := p
      cases verdict with
      | finish => rfl
      | fail reason => rfl
      | goto state => exact runFrom_advance hrest hanswer
      | gotoNamed name =>
        simp only [bind, Except.bind]
        cases m.named name with
        | none => rfl
        | some state => exact runFrom_advance hrest hanswer

/-! ## Whole runs -/

/-- The calls of a run from one call on, and what it comes to. -/
inductive Runs (m : Scanner V σ T) (text : List Char) :
    Call V σ T → List (Call V σ T) → Except Misuse (Outcome V T) → Prop
  | last {k : Call V σ T} {r : Except Misuse (Outcome V T)} (h : m.turn text k = .inr r) : Runs m text k [k] r
  | next {k k' : Call V σ T} {calls : List (Call V σ T)} {r : Except Misuse (Outcome V T)}
      (h : m.turn text k = .inl k') (hrest : Runs m text k' calls r) : Runs m text k (k :: calls) r

variable {calls calls' : List (Call V σ T)} {r' : Except Misuse (Outcome V T)}

theorem Runs.unique (h : Runs m text k calls r) (h' : Runs m text k calls' r') : calls' = calls ∧ r' = r := by
  induction h generalizing calls' with
  | last hturn =>
    cases h' with
    | last hturn' =>
      rw [hturn] at hturn'
      exact ⟨rfl, (Sum.inr.inj hturn').symm⟩
    | next hturn' _ =>
      rw [hturn] at hturn'
      cases hturn'
  | next hturn _ ih =>
    cases h' with
    | last hturn' =>
      rw [hturn] at hturn'
      cases hturn'
    | next hturn' hrest' =>
      rw [hturn] at hturn'
      obtain rfl := Sum.inl.inj hturn'
      obtain ⟨rfl, rfl⟩ := ih hrest'
      exact ⟨rfl, rfl⟩

/-- Every run comes to an end: from call to call the rest of the text gets shorter. -/
theorem exists_runs (m : Scanner V σ T) (text : List Char) (k : Call V σ T) :
    ∃ calls, Runs m text k calls (k.result m text) := by
  rw [result_eq_turn]
  cases h : m.turn text k with
  | inr r => exact ⟨[k], .last h⟩
  | inl k' =>
    have hlt := rest_lt_of_turn h
    obtain ⟨calls, hruns⟩ := exists_runs m text k'
    exact ⟨k :: calls, .next h hruns⟩
termination_by k.rest.length

def firstCall (m : Scanner V σ T) (text : List Char) : Call V σ T := ⟨0, text, m.start, {}⟩

theorem placed_firstCall (m : Scanner V σ T) (text : List Char) : (m.firstCall text).Placed text :=
  ⟨Nat.zero_le _, rfl⟩

theorem Runs.exists_cons (h : Runs m text k calls r) : ∃ calls', calls = k :: calls' := by
  cases h with
  | last _ => exact ⟨[], rfl⟩
  | next _ _ => exact ⟨_, rfl⟩

theorem Runs.placed (h : Runs m text k calls r) (hk : k.Placed text) : ∀ c ∈ calls, c.Placed text := by
  induction h with
  | last _ => simpa using hk
  | next hturn _ ih =>
    intro c hc
    rcases List.mem_cons.1 hc with rfl | hc
    · exact hk
    · exact ih (placed_of_turn hturn hk) c hc

theorem Runs.index_le (h : Runs m text k calls r) : ∀ c ∈ calls, k.index ≤ c.index := by
  induction h with
  | last _ => simp
  | next hturn _ ih =>
    intro c hc
    rcases List.mem_cons.1 hc with rfl | hc
    · exact Nat.le_refl _
    · exact Nat.le_trans (Nat.le_of_lt (index_lt_of_turn hturn)) (ih c hc)

/-- The cursor only moves forward. -/
theorem Runs.increasing (h : Runs m text k calls r) : calls.Pairwise fun c d => c.index < d.index := by
  induction h with
  | last _ => exact List.pairwise_singleton _ _
  | next hturn hrest ih =>
    refine List.pairwise_cons.2 ⟨fun c hc => ?_, ih⟩
    exact Nat.lt_of_lt_of_le (index_lt_of_turn hturn) (hrest.index_le c hc)

theorem Runs.length_le (h : Runs m text k calls r) : calls.length ≤ k.rest.length + 1 := by
  induction h with
  | last _ => simp
  | next hturn _ ih =>
    have := rest_lt_of_turn hturn
    rw [List.length_cons]
    omega

/-- Only the last call can be one at the end. -/
theorem Runs.atEnd_le (h : Runs m text k calls r) : calls.countP (fun c => c.char.isNone) ≤ 1 := by
  induction h with
  | last _ => exact List.countP_le_length
  | @next k k' calls r hturn _ ih =>
    obtain ⟨-, -, -, -, -, -, hne, -⟩ := turn_next hturn
    have hsome : ¬ k.char.isNone = true := by simpa [Call.char] using hne
    rw [List.countP_cons_of_neg (p := fun c : Call V σ T => c.char.isNone) hsome]
    exact ih

theorem Runs.exists_last (h : Runs m text k calls r) :
    ∃ last, calls.getLast? = some last ∧ m.turn text last = .inr r := by
  induction h with
  | last hturn => exact ⟨_, rfl, hturn⟩
  | next hturn hrest ih =>
    obtain ⟨last, hlast, hover⟩ := ih
    obtain ⟨calls', rfl⟩ := hrest.exists_cons
    exact ⟨last, by rw [List.getLast?_cons_cons, hlast], hover⟩

/-! ## What a run comes to -/

/-- A run that ends well has changed what tokens spell, by its transformers, and nothing else of them. -/
theorem succeed_eq_ok {index : Nat} {o : Outcome V T} (h : m.succeed text index w = .ok o) :
    ∃ entries, transform w.opened.entries m.transformers = .ok entries ∧
      o.result = .ok ⟨{ w.opened with entries := entries }.record m.mode, index⟩ := by
  unfold succeed at h
  cases htransform : transform w.opened.entries m.transformers with
  | error e => simp [htransform, bind, Except.bind] at h
  | ok entries =>
    simp only [htransform, bind, Except.bind, pure, Except.pure, Except.ok.injEq] at h
    subst h
    exact ⟨entries, rfl, rfl⟩

/-- What the result of a run says of the call that ended it. -/
def Reports (text : List Char) (last : Call V σ T) : Except LexError (Tokenization V T) → Prop
  | .ok t => t.consumed = last.index
  | .error (.unexpected input position _) => input = text ∧ position = last.index ∧ last.char ≠ none
  | .error (.incomplete input _) => input = text ∧ last.char = none

/-- A run is over because the state called last has ended it, or in an error that reports that call. -/
theorem turn_over {o : Outcome V T} (h : m.turn text k = .inr (.ok o)) :
    (∃ w, k.answer m text = .ok (.finish, w) ∧ m.succeed text k.index w = .ok o) ∨
      ∃ e, o.result = .error e ∧ Reports text k (.error e) := by
  unfold turn at h
  split at h
  · cases h
  · rename_i verdict w hanswer
    split at h
    · rename_i hchar
      cases verdict with
      | finish => exact .inl ⟨w, hanswer, Sum.inr.inj h⟩
      | fail reason => cases h; exact .inr ⟨_, rfl, rfl, hchar⟩
      | goto state => cases h; exact .inr ⟨_, rfl, rfl, hchar⟩
      | gotoNamed name => cases h; exact .inr ⟨_, rfl, rfl, hchar⟩
    · rename_i c hchar
      cases verdict with
      | finish => exact .inl ⟨w, hanswer, Sum.inr.inj h⟩
      | fail reason => cases h; exact .inr ⟨_, rfl, rfl, rfl, by simp [hchar]⟩
      | goto state => cases h
      | gotoNamed name =>
        simp only at h
        split at h <;> cases h

theorem reports_of_turn {o : Outcome V T} (h : m.turn text k = .inr (.ok o)) : Reports text k o.result := by
  rcases turn_over h with ⟨w, -, hsucceed⟩ | ⟨e, he, hreports⟩
  · obtain ⟨entries, -, hresult⟩ := succeed_eq_ok hsucceed
    rw [hresult]
    rfl
  · rw [he]
    exact hreports

/-- What the cursor keeps to in a run with these calls and this result. -/
structure KeepsCursor (text : List Char) (calls : List (Call V σ T)) (r : Except Misuse (Outcome V T)) : Prop where
  start : calls.head?.map Call.index = some 0
  increasing : calls.Pairwise fun c d => c.index < d.index
  index_le : ∀ c ∈ calls, c.index ≤ text.length
  char_eq : ∀ c ∈ calls, c.char = text[c.index]?
  char_none : ∀ c ∈ calls, c.char = none ↔ c.index = text.length
  atEnd_le : calls.countP (fun c => c.char.isNone) ≤ 1
  length_le : calls.length ≤ text.length + 1
  consumed : ∀ o t, r = .ok o → o.result = .ok t →
    t.consumed ≤ text.length ∧ calls.getLast?.map Call.index = some t.consumed
  unexpected : ∀ o input position reason, r = .ok o →
    o.result = .error (.unexpected input position reason) → input = text ∧ position < text.length
  incomplete : ∀ o input reason, r = .ok o →
    o.result = .error (.incomplete input reason) → input = text ∧ ∃ c ∈ calls, c.char = none

/-- **The cursor of a run.** Whatever the states do, a run calls them finitely often: at positions that
strictly increase from zero and do not exceed the length of the text, each time with the character there, and
at most once, at the end, with none. So it makes no more calls than there are characters, and one. If it ends
well it has consumed what is before the last call. An unexpected character is one of the text, and a text is
incomplete only after a state has been called at its end. -/
theorem run_keeps_cursor (m : Scanner V σ T) (text : List Char) :
    ∃ calls, Runs m text (m.firstCall text) calls (m.run text) ∧
      (∀ calls' r, Runs m text (m.firstCall text) calls' r → calls' = calls ∧ r = m.run text) ∧
      KeepsCursor text calls (m.run text) := by
  obtain ⟨calls, hruns⟩ := exists_runs m text (m.firstCall text)
  have hplaced := hruns.placed (placed_firstCall m text)
  obtain ⟨last, hlast, hturn⟩ := hruns.exists_last
  have hmem : last ∈ calls := List.mem_of_getLast? hlast
  have hreports (o : Outcome V T) (ho : m.run text = .ok o) : Reports text last o.result :=
    reports_of_turn (hturn.trans (congrArg Sum.inr ho))
  refine ⟨calls, hruns, fun calls' r h => hruns.unique h, ?_⟩
  constructor
  case start =>
    obtain ⟨calls', rfl⟩ := hruns.exists_cons
    rfl
  case increasing => exact hruns.increasing
  case index_le => exact fun c hc => (hplaced c hc).index_le
  case char_eq => exact fun c hc => (hplaced c hc).char_eq
  case char_none => exact fun c hc => (hplaced c hc).char_none
  case atEnd_le => exact hruns.atEnd_le
  case length_le => exact hruns.length_le
  case consumed =>
    intro o t ho ht
    have hconsumed := hreports o ho
    rw [ht] at hconsumed
    rw [hlast]
    exact ⟨hconsumed ▸ (hplaced last hmem).index_le, congrArg some hconsumed.symm⟩
  case unexpected =>
    intro o input position reason ho he
    have hposition := hreports o ho
    rw [he] at hposition
    obtain ⟨rfl, rfl, hchar⟩ := hposition
    have hle := (hplaced last hmem).index_le
    have hne := mt (hplaced last hmem).char_none.2 hchar
    exact ⟨rfl, by omega⟩
  case incomplete =>
    intro o input reason ho he
    have hincomplete := hreports o ho
    rw [he] at hincomplete
    exact ⟨hincomplete.1, last, hmem, hincomplete.2⟩

end Scanner

end Reckoner
