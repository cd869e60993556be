import Reckoner.Proofs.Scanner.Calls
import Reckoner.Scanner.Transformer

/-!
# How far a run reads

A script that neither looks ahead nor delegates knows of the text only the character at the cursor
(`Script.exec_congr`). So two runs of a scanner of such scripts, on two texts, keep to the same calls as long as
the texts have the same characters there (`Runs.follow`): where a run stops, and what it comes to, is decided by
the characters up to the last one that it has been shown. Main theorem `run_reads_no_further`.
-/
namespace Reckoner

variable {V σ T α : Type}

namespace Script

variable {mode : Mode} {cursor cursor' : Cursor}

/-- Neither looks ahead nor scans the rest of the text: what is left to decide on is the character given and
the tokens opened so far. -/
def IsLocal : Script V α T → Prop
  | done _ | abort _ => True
  | openToken _ _ _ next | eat next | update _ next | note _ next => next.IsLocal
  | look next => ∀ opened, (next opened).IsLocal
  | peek _ _ | delegate _ _ _ _ _ => False

/-- A local script does the same wherever the character is the same. -/
theorem exec_congr {script : Script V α T} (hlocal : script.IsLocal) (hchar : cursor'.char = cursor.char)
    (w : Workspace V T) : script.exec mode cursor' w = script.exec mode cursor w := by
  induction script generalizing w with
  | done a => rfl
  | openToken kind key fields next ih =>
    simp only [exec]
    cases w.openToken mode kind key fields with
    | error e => rfl
    | ok w₁ => exact ih hlocal w₁
  | eat next ih =>
    simp only [exec, hchar]
    cases w.eat cursor.char with
    | error e => rfl
    | ok w₁ => exact ih hlocal w₁
  | update fields next ih =>
    simp only [exec]
    cases w.update fields with
    | error e => rfl
    | ok w₁ => exact ih hlocal w₁
  | look next ih => exact ih w.opened (hlocal w.opened) w
  | note n next ih => exact ih hlocal (w.record (.note n))
  | abort e => rfl
  | peek offset next ih => exact hlocal.elim
  | delegate nested kind key fields next ih => exact hlocal.elim

end Script

/-! ## One run in two texts -/

/-- The same error of another text. -/
def LexError.within (text : List Char) : LexError → LexError
  | .unexpected _ position reason => .unexpected text position reason
  | .incomplete _ reason => .incomplete text reason

/-- What the outcome comes to in another text. -/
def Outcome.resultWithin (text : List Char) (o : Outcome V T) : Except LexError (Tokenization V T) :=
  o.result.mapError (LexError.within text)

/-- The same call in another text: what follows the cursor is that text's. -/
def Call.within (text : List Char) (k : Call V σ T) : Call V σ T := { k with rest := text.drop k.index }

namespace Scanner

/-- None of its states looks ahead or delegates. -/
def IsLocal (m : Scanner V σ T) : Prop := ∀ state c, (m.behaviour state c).IsLocal

variable {m : Scanner V σ T} {text text' : List Char} {k : Call V σ T} {calls : List (Call V σ T)}
  {r : Except Misuse (Outcome V T)}

theorem char_within (hk : k.Placed text) (hchar : text'[k.index]? = text[k.index]?) :
    (k.within text').char = k.char := by
  rw [hk.char_eq, ← hchar, Call.char, Call.within, List.head?_drop]

theorem next_within (w : Workspace V T) (state : σ) :
    (k.within text').next w state = (k.next w state).within text' := by
  simp only [Call.next, Call.within, List.drop_drop]

theorem answer_within (text : List Char) (hm : m.IsLocal) (hchar : (k.within text').char = k.char) :
    (k.within text').answer m text' = k.answer m text := by
  have hhead : (k.within text').rest.head? = k.rest.head? := hchar
  have hcursor : Cursor.char ⟨text', k.index, (k.within text').rest⟩ = Cursor.char ⟨text, k.index, k.rest⟩ := hchar
  unfold Call.answer call
  rw [hhead]
  exact Script.exec_congr (hm k.state k.rest.head?) hcursor _

theorem succeed_within (index : Nat) (w : Workspace V T) :
    (m.succeed text' index w).map Outcome.result = (m.succeed text index w).map (Outcome.resultWithin text') := by
  unfold succeed
  cases transform w.opened.entries m.transformers with
  | error e => rfl
  | ok entries => rfl

theorem atEnd_within (index : Nat) (w : Workspace V T) (verdict : Verdict σ) :
    (m.atEnd text' index w verdict).map Outcome.result =
      (m.atEnd text index w verdict).map (Outcome.resultWithin text') := by
  cases verdict with
  | finish => exact succeed_within index w
  | fail reason => rfl
  | goto state => rfl
  | gotoNamed name => rfl

/-- On the same character a local scanner takes the same turn in both texts. -/
theorem turn_within (text : List Char) (hm : m.IsLocal) (hchar : (k.within text').char = k.char) :
    (m.turn text' (k.within text')).map id (Except.map Outcome.result) =
      (m.turn text k).map (Call.within text') (Except.map (Outcome.resultWithin text')) := by
  unfold turn
  rw [answer_within text hm hchar, hchar]
  cases k.answer m text with
  | error e => rfl
  | ok p =>
    obtain ⟨verdict, w⟩ := p
    cases k.char with
    | none => exact congrArg Sum.inr (atEnd_within k.index w verdict)
    | some c =>
      cases verdict with
      | finish => exact congrArg Sum.inr (succeed_within k.index w)
      | fail reason => rfl
      | goto state => exact congrArg Sum.inl (next_within w state)
      | gotoNamed name =>
        simp only
        cases m.named name with
        | none => rfl
        | some state => exact congrArg Sum.inl (next_within w state)

/-- As long as a run is shown the same characters in another text, it comes to the same there. -/
theorem Runs.follow (hm : m.IsLocal) (h : Runs m text k calls r) (hk : k.Placed text)
    (hagree : ∀ c ∈ calls, text'[c.index]? = text[c.index]?) :
    ((k.within text').result m text').map Outcome.result = r.map (Outcome.resultWithin text') := by
  induction h with
  | @last k r hturn =>
    have hchar := char_within hk (hagree k List.mem_cons_self)
    have hover := turn_within text hm hchar
    rw [hturn] at hover
    rw [result_eq_turn]
    cases hturn' : m.turn text' (k.within text') with
    | inl c => simp [hturn'] at hover
    | inr r' => simpa [hturn'] using hover
  | @next k c calls r hturn hrest ih =>
    have hchar := char_within hk (hagree k List.mem_cons_self)
    have hnext := turn_within text hm hchar
    rw [hturn] at hnext
    rw [result_eq_turn]
    cases hturn' : m.turn text' (k.within text') with
    | inr r' => simp [hturn'] at hnext
    | inl c' =>
      obtain rfl : c' = c.within text' := by simpa [hturn'] using hnext
      exact ih (placed_of_turn hturn hk) fun d hd => hagree d (List.mem_cons_of_mem k hd)

theorem Runs.le_last {last : Call V σ T} (h : Runs m text k calls r) (hlast : calls.getLast? = some last) :
    ∀ c ∈ calls, c.index ≤ last.index := by
  obtain ⟨front, rfl⟩ := List.getLast?_eq_some_iff.1 hlast
  have hincreasing := List.pairwise_append.1 h.increasing
  intro c hc
  rcases List.mem_append.1 hc with hc | hc
  · exact Nat.le_of_lt (hincreasing.2.2 c hc last (List.mem_singleton_self last))
  · exact Nat.le_of_eq (congrArg Call.index (List.mem_singleton.1 hc))

/-- Where a local run stops is all that another text has to agree up to, for its run to come to the same. -/
theorem exists_stop (hm : m.IsLocal) {o : Outcome V T} (ho : m.run text = .ok o) :
    ∃ last : Call V σ T, Reports text last o.result ∧ ∀ text', (∀ i ≤ last.index, text'[i]? = text[i]?) →
      ∃ o', m.run text' = .ok o' ∧ o'.result = o.resultWithin text' := by
  obtain ⟨calls, hruns⟩ := exists_runs m text (m.firstCall text)
  have hrun : (m.firstCall text).result m text = .ok o := ho
  rw [hrun] at hruns
  obtain ⟨last, hlast, hturn⟩ := hruns.exists_last
  refine ⟨last, reports_of_turn hturn, fun text' hagree => ?_⟩
  have hfollow : (m.run text').map Outcome.result = (Except.ok o).map (Outcome.resultWithin text') :=
    hruns.follow hm (placed_firstCall m text) fun c hc => hagree c.index (hruns.le_last hlast c hc)
  cases ho' : m.run text' with
  | error e => simp [ho', Except.map] at hfollow
  | ok o' => exact ⟨o', rfl, by simpa [ho', Except.map] using hfollow⟩

theorem getElem?_eq_of_take_eq {n i : Nat} (h : text'.take n = text.take n) (hi : i < n) : text'[i]? = text[i]? := by
  have := congrArg (·[i]?) h
  simpa [List.getElem?_take, hi] using this

/-- **Locality of runs.** If no state of a scanner looks ahead or delegates, a run depends on nothing beyond the
character that it stops at. One that ends well consumes as much and yields the same tokens in every text with the
same start and the same next character, or end. One that fails on a character fails on it, for the same reason, in
every text that is the same up to there. -/
theorem run_reads_no_further (m : Scanner V σ T) (hm : m.IsLocal) (text : List Char) :
    (∀ o t, m.run text = .ok o → o.result = .ok t →
      ∀ text', text'.take t.consumed = text.take t.consumed → text'[t.consumed]? = text[t.consumed]? →
        ∃ o', m.run text' = .ok o' ∧ o'.result = .ok t) ∧
    ∀ o input position reason, m.run text = .ok o → o.result = .error (.unexpected input position reason) →
      ∀ text', text'.take (position + 1) = text.take (position + 1) →
        ∃ o', m.run text' = .ok o' ∧ o'.result = .error (.unexpected text' position reason) := by
  refine ⟨fun o t ho ht text' hfront hnext => ?_, fun o input position reason ho he text' hfront => ?_⟩
  · obtain ⟨last, hstop, hwithin⟩ := exists_stop hm ho
    rw [ht] at hstop
    have hconsumed : t.consumed = last.index := hstop
    rw [hconsumed] at hfront hnext
    have hagree : ∀ i ≤ last.index, text'[i]? = text[i]? := by
      intro i hi
      rcases Nat.lt_or_eq_of_le hi with hlt | rfl
      · exact getElem?_eq_of_take_eq hfront hlt
      · exact hnext
    obtain ⟨o', ho', hresult⟩ := hwithin text' hagree
    exact ⟨o', ho', by rw [hresult, Outcome.resultWithin, ht]; rfl⟩
  · obtain ⟨last, hstop, hwithin⟩ := exists_stop hm ho
    rw [he] at hstop
    obtain ⟨-, rfl, -⟩ := hstop
    obtain ⟨o', ho', hresult⟩ := hwithin text' fun i hi => getElem?_eq_of_take_eq hfront (Nat.lt_succ_of_le hi)
    exact ⟨o', ho', by rw [hresult, Outcome.resultWithin, he]; rfl⟩

/-- A scanner of fields, each after a comma, up to a semicolon. The last of them is kept, written twice. -/
def lastField : Scanner Unit Unit where
  mode := .keyed
  start := ()
  label _ := "fields"
  named _ := none
  behaviour
    | (), none | (), some ';' => .done .finish
    | (), some '!' => .done (.fail "a mark")
    | (), some ',' => .openToken none (some "field") [] (.done (.goto ()))
    | (), some _ => .eat (.done (.goto ()))
  transformers := [("field", Transformer.double)]

/-- What stands after the semicolon, or after the mark that is refused, does not matter. -/
theorem run_reads_no_further_fields :
    lastField.IsLocal ∧
    (∃ o o' t, lastField.run [',', 'a', ',', 'b', ';', 'x'] = .ok o ∧ o.result = .ok t ∧
      t = ⟨.keyed [("field", { lexeme := .chars ['b', 'b'] })], 4⟩ ∧
      lastField.run [',', 'a', ',', 'b', ';', '!', ','] = .ok o' ∧ o'.result = .ok t) ∧
    ∃ o o', lastField.run [',', 'a', '!', 'b'] = .ok o ∧
      o.result = .error (.unexpected [',', 'a', '!', 'b'] 2 "a mark") ∧
      lastField.run [',', 'a', '!'] = .ok o' ∧ o'.result = .error (.unexpected [',', 'a', '!'] 2 "a mark") := by
  have hlocal : lastField.IsLocal := by
    intro state c
    cases state
    simp only [lastField]
    split <;> trivial
  refine ⟨hlocal, ?_, ?_⟩
  · obtain ⟨o', ho', ht⟩ := (run_reads_no_further lastField hlocal [',', 'a', ',', 'b', ';', 'x']).1 _ _ rfl rfl
      [',', 'a', ',', 'b', ';', '!', ','] rfl rfl
    exact ⟨_, o', _, rfl, rfl, rfl, ho', ht⟩
  · obtain ⟨o', ho', he⟩ := (run_reads_no_further lastField hlocal [',', 'a', '!', 'b']).2 _ _ _ _ rfl rfl
      [',', 'a', '!'] rfl
    exact ⟨_, o', rfl, rfl, ho', he⟩

end Scanner

end Reckoner
