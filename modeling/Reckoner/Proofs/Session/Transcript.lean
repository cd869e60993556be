import Reckoner.CommandLine.Program
import Reckoner.Proofs.Decimal.Rendering
import Reckoner.Proofs.Expression.Containment

/-!
# Transcripts of sessions

The transcript of a session is its lines with their replies. A session gets through all of its lines, and
answers each with one line of output, unless a number in one of them has too many digits to be read or to be
printed (`step_cases`, `run_reaches`). All that a line leaves behind is what it binds, so one that fails or that
assigns to no name may as well not have been there (`transcript_delete`). Main theorem `failing_line_leaves_no_trace`.
-/
namespace Reckoner.Session

open CommandLine

/-! ## Values of lines -/

section Values

variable [DigitLimit] {expression : List Char}

theorem valueOf_of_parse {x : Expression Decimal} (h : Expression.parse expression = .ok x) (b : Bindings) :
    valueOf b expression = (x.evaluate (b.lookup ·)).mapError .evaluation := by
  simp only [valueOf, h, Except.mapError, Bind.bind, Except.bind]

theorem valueOf_of_parse_error {e : Expression.Error}
    (h : Expression.parse (V := Decimal) expression = .error e) (b : Bindings) :
    valueOf b expression = .error (.expression e) := by
  simp only [valueOf, h, Except.mapError, Bind.bind, Except.bind]

/-- That a literal has too many digits is not put down to the expression. -/
theorem isFault_readError (f : Literal.Form) : (Expression.Error.read f.readError).isFault = true := by
  rw [Literal.Form.readError]
  split <;> rfl

end Values

/-! ## Single lines -/

section Steps

variable [DigitLimit] [NameChars] {f : Format} {precision : Nat} {b b' : Bindings} {text : List Char}

/-- Why a session is broken off on a line: a literal of the expression has too many digits to be read, or the
value is rendered by a number with too many digits to be printed. -/
inductive BreaksOn (precision : Nat) (b : Bindings) (text : List Char) : Breakdown → Prop
  | literal (f : Literal.Form) (before after : List Char)
    (hf : (Line.read text).expression = before ++ f.text ++ after) (hlong : ¬ f.Readable) :
    BreaksOn precision b text (.fault (.read f.readError))
  | value (v : Decimal) (x : Decimal.Rendering) (hv : valueOf b (Line.read text).expression = .ok v)
    (hx : x.Shows precision v) (hlong : ¬ x.Printable v) :
    BreaksOn precision b text (.unprintable (.tooLongToPrint DigitLimit.most))

/-- Without a limit there is nothing to break off for. -/
theorem BreaksOn.limited {e : Breakdown} (h : BreaksOn precision b text e) : DigitLimit.most ≠ 0 := by
  intro hlifted
  have hallows (count : Nat) : DigitLimit.Allows count := .inl hlifted
  cases h with
  | literal f _ _ _ hlong => exact hlong ⟨hallows _, hallows _⟩
  | value v x _ _ hlong => exact hlong (.inr ⟨hallows _, hallows _, hallows _⟩)

theorem step_of_value {v : Decimal} {shown : List Char} (h : valueOf b (Line.read text).expression = .ok v)
    (hshown : f v = .ok shown) : step f b text = .ok (bind b (Line.read text) v, .ok ⟨v, shown⟩) := by
  simp only [step, h, hshown, Bind.bind, Except.bind, pure, Except.pure]

/-- All that a line can come to: a value that is printed, an error, or the end of the session. -/
theorem step_cases (precision : Nat) (b : Bindings) (text : List Char) :
    (∃ v shown, valueOf b (Line.read text).expression = .ok v ∧ v.scientific precision = .ok shown ∧
      step (format (some precision)) b text = .ok (bind b (Line.read text) v, .ok ⟨v, shown⟩)) ∨
    (∃ e, valueOf b (Line.read text).expression = .error e ∧
      step (format (some precision)) b text = .ok (b, .error e)) ∨
    ∃ e, BreaksOn precision b text e ∧ step (format (some precision)) b text = .error e := by
  rcases Expression.parse_cases (V := Decimal) (Line.read text).expression with
    ⟨x, hx⟩ | ⟨t, ht | ht⟩ | ⟨f, before, after, hf, hlong, hfail⟩
  · have hvalue := valueOf_of_parse hx b
    cases hv : x.evaluate (b.lookup ·) with
    | error e =>
      rw [hv] at hvalue
      exact .inr (.inl ⟨.evaluation e, hvalue, by simp only [step, hvalue, Except.mapError]⟩)
    | ok v =>
      rw [hv] at hvalue
      replace hvalue : valueOf b (Line.read text).expression = .ok v := hvalue
      obtain ⟨x, hshows, hx⟩ := Decimal.exists_rendering precision v
      by_cases hprintable : x.Printable v
      · rw [if_pos hprintable] at hx
        exact .inl ⟨v, x.text, hvalue, hx, step_of_value hvalue (by simp only [format, hx, Except.mapError])⟩
      · rw [if_neg hprintable] at hx
        refine .inr (.inr ⟨_, .value v x hvalue hshows hprintable, ?_⟩)
        simp only [step, hvalue, format, hx, Except.mapError, Bind.bind, Except.bind]
  · have hvalue := valueOf_of_parse_error ht b
    exact .inr (.inl ⟨_, hvalue, by simp [step, hvalue, Expression.Error.isFault]⟩)
  · have hvalue := valueOf_of_parse_error ht b
    exact .inr (.inl ⟨_, hvalue, by simp [step, hvalue, Expression.Error.isFault]⟩)
  · have hvalue := valueOf_of_parse_error hfail b
    refine .inr (.inr ⟨_, .literal f before after hf hlong, ?_⟩)
    simp only [step, hvalue, isFault_readError, if_true]

theorem breaksOn_of_step {e : Breakdown} (h : step (format (some precision)) b text = .error e) :
    BreaksOn precision b text e := by
  rcases step_cases precision b text with ⟨v, shown, -, -, hstep⟩ | ⟨e', -, hstep⟩ | ⟨e', he', hstep⟩
  · rw [hstep] at h
    cases h
  · rw [hstep] at h
    cases h
  · exact Except.error.inj (hstep.symm.trans h) ▸ he'

/-- A line that has an error binds nothing, and neither does one that assigns to no name. -/
theorem step_keeps {reply : Reply} (h : step (format (some precision)) b text = .ok (b', reply))
    (hreply : (∃ e, reply = .error e) ∨ (Line.read text).name = none) : b' = b := by
  rcases step_cases precision b text with ⟨v, shown, -, -, hstep⟩ | ⟨e, -, hstep⟩ | ⟨e, -, hstep⟩
  · obtain ⟨rfl, rfl⟩ := Prod.mk.inj (Except.ok.inj (hstep.symm.trans h))
    rcases hreply with ⟨e, he⟩ | hname
    · cases he
    · simp only [bind, hname]
  · exact (Prod.mk.inj (Except.ok.inj (hstep.symm.trans h))).1.symm
  · rw [hstep] at h
    cases h

end Steps

/-! ## Runs -/

/-- What a session comes to that goes on after a course, unless that one is broken off. -/
def Course.followedBy (c : Course) (next : Bindings → Course) : Course :=
  match c.breakdown with
  | some _ => c
  | none => { next c.bindings with replies := c.replies ++ (next c.bindings).replies }

theorem Course.followedBy_of_done {c : Course} (h : c.breakdown = none) (next : Bindings → Course) :
    c.followedBy next = { next c.bindings with replies := c.replies ++ (next c.bindings).replies } := by
  simp only [followedBy, h]

theorem Course.followedBy_congr {c : Course} {next next' : Bindings → Course}
    (h : next c.bindings = next' c.bindings) : c.followedBy next = c.followedBy next' := by
  simp only [followedBy, h]

section Runs

variable [DigitLimit] [NameChars] {f : Format} {precision : Nat} {b b' : Bindings} {text : List Char}
  {texts texts' : List (List Char)} {reply : Reply}

theorem run_of_step (h : step f b text = .ok (b', reply)) (texts : List (List Char)) :
    run f b (text :: texts) = { run f b' texts with replies := reply :: (run f b' texts).replies } := by
  simp only [run, h]

theorem run_of_step_error {e : Breakdown} (h : step f b text = .error e) (texts : List (List Char)) :
    run f b (text :: texts) = ⟨b, [], some e⟩ := by
  simp only [run, h]

theorem run_append (f : Format) : ∀ (b : Bindings) (texts texts' : List (List Char)),
    run f b (texts ++ texts') = (run f b texts).followedBy (run f · texts')
  | b, [], texts' => rfl
  | b, text :: texts, texts' => by
    rw [List.cons_append]
    cases hstep : step f b text with
    | error e => rw [run_of_step_error hstep, run_of_step_error hstep, Course.followedBy]
    | ok p =>
      rw [run_of_step hstep, run_of_step hstep, run_append f p.1 texts texts']
      cases hbreak : (run f p.1 texts).breakdown <;> simp only [Course.followedBy, hbreak, List.cons_append]

/-! ## Transcripts -/

/-- The lines of a session with their replies. -/
def transcript (f : Format) (b : Bindings) (texts : List (List Char)) : List (List Char × Reply) :=
  texts.zip (run f b texts).replies

theorem transcript_of_step (h : step f b text = .ok (b', reply)) (texts : List (List Char)) :
    transcript f b (text :: texts) = (text, reply) :: transcript f b' texts := by
  rw [transcript, run_of_step h, List.zip_cons_cons, transcript]

theorem transcript_of_step_error {e : Breakdown} (h : step f b text = .error e) (texts : List (List Char)) :
    transcript f b (text :: texts) = [] := by
  rw [transcript, run_of_step_error h, List.zip_nil_right]

theorem transcript_append (f : Format) : ∀ {texts : List (List Char)} {b : Bindings},
    (run f b texts).breakdown = none → ∀ texts', transcript f b (texts ++ texts') =
      transcript f b texts ++ transcript f (run f b texts).bindings texts'
  | [], _, _, _ => rfl
  | text :: texts, b, hdone, texts' => by
    cases hstep : step f b text with
    | error e =>
      rw [run_of_step_error hstep] at hdone
      cases hdone
    | ok p =>
      rw [run_of_step hstep] at hdone
      rw [List.cons_append, transcript_of_step hstep, transcript_of_step hstep, run_of_step hstep,
        transcript_append f hdone texts', List.cons_append]

theorem length_replies_le (f : Format) : ∀ (texts : List (List Char)) (b : Bindings),
    (run f b texts).replies.length ≤ texts.length
  | [], _ => Nat.le_refl 0
  | text :: texts, b => by
    cases hstep : step f b text with
    | error e => rw [run_of_step_error hstep]; exact Nat.zero_le _
    | ok p => rw [run_of_step hstep]; exact Nat.succ_le_succ (length_replies_le f texts p.1)

/-- A session gets to its last line, or is broken off on the line after those that it has answered. -/
theorem run_reaches (f : Format) : ∀ (texts : List (List Char)) (b : Bindings),
    (run f b texts).breakdown = none ∧ (transcript f b texts).map Prod.fst = texts ∨
    ∃ text rest e, texts = (transcript f b texts).map Prod.fst ++ text :: rest ∧
      (run f b texts).breakdown = some e ∧ step f (run f b texts).bindings text = .error e
  | [], _ => .inl ⟨rfl, rfl⟩
  | text :: texts, b => by
    cases hstep : step f b text with
    | error e =>
      refine .inr ⟨text, texts, e, ?_, ?_, ?_⟩
      · rw [transcript_of_step_error hstep, List.map_nil, List.nil_append]
      · rw [run_of_step_error hstep]
      · rw [run_of_step_error hstep, hstep]
    | ok p =>
      rw [run_of_step hstep, transcript_of_step hstep, List.map_cons]
      rcases run_reaches f texts p.1 with ⟨hdone, hall⟩ | ⟨last, rest, e, hsplit, hbroken, hlast⟩
      · exact .inl ⟨hdone, by rw [hall]⟩
      · exact .inr ⟨last, rest, e, by rw [List.cons_append, ← hsplit], hbroken, hlast⟩

end Runs

/-! ## Output -/

/-- The line of output that answers a line of the session: its value on one channel, or its error on
the other. -/
def answer : Reply → Output
  | .ok result => .result (String.ofList result.text)
  | .error e => .report e.message

/-- The options that ask for an evaluation of lines. -/
def evaluation (verbose : Bool) (precision : Nat) (given : List (List Char × Decimal)) : Options :=
  { verbose := verbose, precision := some precision, bindings := given.map some }

theorem initialBindings_map_some (given : List (List Char × Decimal)) :
    initialBindings (given.map some) = .ok given.reverse := by
  have hnone : (given.map some).findIdx? (·.isNone) = none := by simp
  simp [initialBindings, hnone]

section Outputs

variable [DigitLimit] [NameChars]

def notes (verbose : Bool) (x : List Char × Reply) : List String :=
  if verbose then
    trace (Line.read x.1).expression ++ if x.2.isOk then [] else ["DEBUG [rpnexpr.cli] Failed"]
  else []

def printed (verbose : Bool) (x : List Char × Reply) : List Output :=
  (notes verbose x).map .report ++ [answer x.2]

theorem printed_eq (verbose : Bool) (x : List Char × Reply) :
    preamble verbose x.1 ++ printReply verbose x.2 = printed verbose x := by
  obtain ⟨text, reply⟩ := x
  cases verbose <;> cases reply <;>
    simp [preamble, printReply, reportError, printed, notes, answer, Except.isOk, Except.toBool]

/-- What is printed on the line that comes after those of a transcript, before it is answered. -/
def announced (verbose : Bool) (texts : List (List Char)) (session : List (List Char × Reply)) : List Output :=
  (texts.drop session.length).head?.elim [] (preamble verbose)

theorem announced_eq_nil {verbose : Bool} {texts : List (List Char)} {session : List (List Char × Reply)}
    (h : session.map Prod.fst = texts) : announced verbose texts session = [] := by
  have hdrop : texts.drop session.length = [] := by rw [← h, List.drop_eq_nil_iff, List.length_map]
  rw [announced, hdrop]
  rfl

/-- What a session on these lines prints, with what it is broken off for, if it is. -/
theorem evaluateAll_eq (verbose : Bool) (precision : Option Nat) (b : Bindings) (texts : List (List Char)) :
    evaluateAll verbose precision b texts =
      let session := transcript (format precision) b texts
      ⟨session.flatMap (printed verbose) ++ announced verbose texts session,
        (run (format precision) b texts).breakdown⟩ := by
  have hprinted : (transcript (format precision) b texts).flatMap (printed verbose) =
      (texts.zip (run (format precision) b texts).replies).flatMap fun x =>
        preamble verbose x.1 ++ printReply verbose x.2 := by
    simp only [transcript, printed_eq]
  have hlength : (transcript (format precision) b texts).length = (run (format precision) b texts).replies.length := by
    rw [transcript, List.length_zip]
    exact Nat.min_eq_right (length_replies_le (format precision) texts b)
  simp only [announced, hprinted, hlength, evaluateAll]

theorem perform_eq (verbose : Bool) (precision : Nat) (given : List (List Char × Decimal))
    (lines : List (List Char)) :
    perform (evaluation verbose precision given) lines =
      let texts := Line.significant lines
      let session := transcript (format (some precision)) given.reverse texts
      ⟨session.flatMap (printed verbose) ++ announced verbose texts session,
        (run (format (some precision)) given.reverse texts).breakdown.map .session⟩ := by
  simp only [perform, evaluation, initialBindings_map_some, Bool.false_eq_true, if_false, evaluateAll_eq,
    Printout.map]

/-- A session that is not broken off prints the answers to its lines, and no more. -/
theorem perform_eq_done_iff {verbose : Bool} {precision : Nat} {given : List (List Char × Decimal)}
    {lines : List (List Char)} {outputs : List Output} :
    perform (evaluation verbose precision given) lines = ⟨outputs, none⟩ ↔
      (run (format (some precision)) given.reverse (Line.significant lines)).breakdown = none ∧
      (transcript (format (some precision)) given.reverse (Line.significant lines)).flatMap (printed verbose) =
        outputs := by
  rw [perform_eq]
  rcases run_reaches (format (some precision)) (Line.significant lines) given.reverse with
    ⟨hdone, hall⟩ | ⟨_, _, e, -, hbroken, -⟩
  · simp [announced_eq_nil hall, hdone]
  · simp [hbroken]

end Outputs

/-! ## Deleting a line -/

theorem significant_append (lines lines' : List (List Char)) :
    Line.significant (lines ++ lines') = Line.significant lines ++ Line.significant lines' := by
  simp [Line.significant]

theorem significant_cons {line : List Char} (h : strip line ≠ []) (lines : List (List Char)) :
    Line.significant (line :: lines) = strip line :: Line.significant lines := by
  simp [Line.significant, h]

section Deleting

variable [DigitLimit] [NameChars]

/-- A line can be taken out that has been answered and binds nothing, and so can one that the session has not
got to. -/
theorem transcript_delete (precision : Nat) (b : Bindings) (texts : List (List Char)) (text : List Char)
    (texts' : List (List Char)) :
    let f := format (some precision)
    let whole := run f b (texts ++ text :: texts')
    let session := transcript f b (texts ++ text :: texts')
    (∃ earlier reply later, session = earlier ++ (text, reply) :: later ∧
      earlier.map Prod.fst = texts ∧ later.map Prod.fst <+: texts' ∧
      ((∃ e, reply = .error e) ∨ (Line.read text).name = none →
        transcript f b (texts ++ texts') = earlier ++ later ∧
        (run f b (texts ++ texts')).bindings = whole.bindings ∧
        (run f b (texts ++ texts')).breakdown = whole.breakdown)) ∨
    whole.breakdown ≠ none ∧ (session.map Prod.fst = texts ∨ run f b (texts ++ texts') = whole) := by
  intro f whole session
  have hwhole : whole = (run f b texts).followedBy (run f · (text :: texts')) := run_append f b texts _
  have hless : run f b (texts ++ texts') = (run f b texts).followedBy (run f · texts') := run_append f b texts _
  rcases run_reaches f texts b with ⟨hdone, hall⟩ | ⟨_, _, e, -, hbroken, -⟩
  · have hsession : session = transcript f b texts ++ transcript f (run f b texts).bindings (text :: texts') :=
      transcript_append f hdone _
    rw [Course.followedBy_of_done hdone] at hwhole hless
    cases hstep : step f (run f b texts).bindings text with
    | error e =>
      rw [transcript_of_step_error hstep, List.append_nil] at hsession
      rw [run_of_step_error hstep] at hwhole
      exact .inr ⟨by simp [hwhole], .inl (hsession ▸ hall)⟩
    | ok p =>
      obtain ⟨b', reply⟩ := p
      rw [transcript_of_step hstep] at hsession
      rw [run_of_step hstep] at hwhole
      refine .inl ⟨_, reply, _, hsession, hall, ?_, fun hreply => ?_⟩
      · rcases run_reaches f texts' b' with ⟨-, hlater⟩ | ⟨last, rest, -, hlater, -, -⟩
        · rw [hlater]
        · exact ⟨last :: rest, hlater.symm⟩
      · obtain rfl : b' = (run f b texts).bindings := step_keeps hstep hreply
        rw [transcript_append f hdone, hless, hwhole]
        exact ⟨rfl, rfl, rfl⟩
  · have hstop (next : Bindings → Course) : (run f b texts).followedBy next = run f b texts := by
      rw [Course.followedBy, hbroken]
    rw [hstop] at hwhole hless
    exact .inr ⟨by simp [hwhole, hbroken], .inr (hless.trans hwhole.symm)⟩

/-- **A failing line leaves no trace.** A session gets to its last line, whatever its lines are, and answers each
that is not blank, and no other, with a result or with the report of an error; only a number that has more digits
than the limit allows can break it off before, which cannot be without a limit. Take out a line that has an error,
or one that is no assignment: the other lines keep their replies, in order, the bindings at the end are the same,
and so is what the session is broken off for, if it is. -/
theorem failing_line_leaves_no_trace (verbose : Bool) (precision : Nat)
    (given : List (List Char × Decimal)) (lines : List (List Char)) :
    let course (lines : List (List Char)) := run (format (some precision)) given.reverse (Line.significant lines)
    let session (lines : List (List Char)) :=
      transcript (format (some precision)) given.reverse (Line.significant lines)
    (∀ lines, perform (evaluation verbose precision given) lines =
      ⟨(session lines).flatMap (printed verbose) ++ announced verbose (Line.significant lines) (session lines),
        (course lines).breakdown.map .session⟩) ∧
    ((course lines).breakdown = none ∧ (session lines).map Prod.fst = Line.significant lines ∨
      ∃ text rest e, Line.significant lines = (session lines).map Prod.fst ++ text :: rest ∧
        (course lines).breakdown = some e ∧ BreaksOn precision (course lines).bindings text e) ∧
    (DigitLimit.most = 0 → (course lines).breakdown = none) ∧
    ∀ (before : List (List Char)) (line : List Char) (after : List (List Char)),
      lines = before ++ line :: after → strip line ≠ [] →
      (∃ earlier reply later, session lines = earlier ++ (strip line, reply) :: later ∧
        earlier.map Prod.fst = Line.significant before ∧
        later.map Prod.fst <+: Line.significant after ∧
        ((∃ e, reply = .error e) ∨ (Line.read (strip line)).name = none →
          session (before ++ after) = earlier ++ later ∧
          (course (before ++ after)).bindings = (course lines).bindings ∧
          (course (before ++ after)).breakdown = (course lines).breakdown)) ∨
      (course lines).breakdown ≠ none ∧
        ((session lines).map Prod.fst = Line.significant before ∨ course (before ++ after) = course lines) := by
  intro course session
  have hreach : (course lines).breakdown = none ∧ (session lines).map Prod.fst = Line.significant lines ∨
      ∃ text rest e, Line.significant lines = (session lines).map Prod.fst ++ text :: rest ∧
        (course lines).breakdown = some e ∧ BreaksOn precision (course lines).bindings text e := by
    refine (run_reaches _ _ _).imp_right ?_
    rintro ⟨text, rest, e, hsplit, hbroken, hstep⟩
    exact ⟨text, rest, e, hsplit, hbroken, breaksOn_of_step hstep⟩
  refine ⟨perform_eq verbose precision given, hreach, fun hlifted => ?_, ?_⟩
  · rcases hreach with ⟨hdone, -⟩ | ⟨text, rest, e, -, -, hbreaks⟩
    · exact hdone
    · exact absurd hlifted hbreaks.limited
  · rintro before line after rfl hline
    have hlines : Line.significant (before ++ line :: after) =
        Line.significant before ++ strip line :: Line.significant after := by
      rw [significant_append, significant_cons hline]
    simp only [course, session, hlines, significant_append]
    exact transcript_delete precision given.reverse _ _ _

end Deleting

/-- `x = 2`, `x = y`, ` ` and `x`: that `y` is not bound does not show in the value of `x`. -/
theorem failing_line_leaves_no_trace_unbound :
    let _ : DigitLimit := .standard
    let _ : NameChars := .unicode17
    let first := ['x', ' ', '=', ' ', '2']
    let failing := ['x', ' ', '=', ' ', 'y']
    let last := ['x']
    let two : Result := ⟨⟨2, 0⟩, ['2', ',', '0', '0']⟩
    let session := transcript (format (some 2)) []
    session (Line.significant [first, failing, [' '], last]) =
        [(first, .ok two), (failing, .error (.evaluation (.unbound ['y']))), (last, .ok two)] ∧
      session (Line.significant [first, [' '], last]) = [(first, .ok two), (last, .ok two)] := by
  intro limit chars first failing last two session
  have hsession : session (Line.significant [first, failing, [' '], last]) =
      [(first, .ok two), (failing, .error (.evaluation (.unbound ['y']))), (last, .ok two)] := by
    decide +kernel
  refine ⟨hsession, ?_⟩
  obtain ⟨-, -, -, hdelete⟩ :=
    failing_line_leaves_no_trace false 2 [] [first, failing, [' '], last]
  have hdone : (run (format (some 2)) [] (Line.significant [first, failing, [' '], last])).breakdown = none := by
    decide +kernel
  obtain ⟨earlier, reply, later, hsplit, hearlier, -, h⟩ :=
    (hdelete [first] failing [[' '], last] rfl (by decide)).resolve_right fun hbroken => hbroken.1 hdone
  have hlength : earlier.length = 1 := List.length_map Prod.fst ▸ congrArg List.length hearlier
  obtain ⟨x, rfl⟩ := List.length_eq_one_iff.1 hlength
  obtain ⟨hx, hreply, hlater⟩ : _ = x ∧ (_, _) = (strip failing, reply) ∧ _ = later := by
    simpa using hsession.symm.trans hsplit
  have hreply : reply = .error (.evaluation (.unbound ['y'])) := (congrArg Prod.snd hreply).symm
  rw [← hx, ← hlater] at h
  exact (h (.inl ⟨_, hreply⟩)).1

end Reckoner.Session
