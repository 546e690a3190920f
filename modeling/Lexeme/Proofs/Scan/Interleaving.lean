/-
Lexeme.Proofs.Scan.Interleaving — two ways to ask, and one run behind them.

A scanner can be asked by `next`, which gives its error again and again, and
by `item?`, which gives it once and nothing after it. Callers may take turns
with the two, and each question is answered from the run of the text that was
loaded last: its tokens in their order, then its end, by the manners of
whoever asks (`Run.answer`). `session_follows_run` says so of every mixture,
and of what is gathered in the middle of one.

  §1 Questions — the two ways to ask, and what is answered.
  §2 Answers   — what a run says of each question.
  §3 Rest      — behind its end a scanner changes no more.
  §4 Sessions  — by induction on the questions, one case for each outcome.
-/
import Lexeme.Proofs.Scan.Run

namespace Lexeme

/-! ## §1 Questions -/

/-- The two ways to ask for what comes next. -/
inductive Ask where
  | next
  | item
deriving DecidableEq, Repr

/-- What each of them can be answered. -/
inductive Answer where
  | next (outcome : Outcome)
  | item (item : Option (Except ScanError Token))

namespace Scanner

/-- One question: its answer, and the scanner after it. -/
def ask (s : Scanner) : Ask → Answer × Scanner
  | .next => (.next s.next.outcome, s.next.after)
  | .item => (.item s.item?.1, s.item?.2)

/-- The answers to questions that are asked one after the other. -/
def answers : Scanner → List Ask → List Answer
  | _, [] => []
  | s, a :: as => (s.ask a).1 :: (s.ask a).2.answers as

/-- The scanner behind some questions. -/
def asked : Scanner → List Ask → Scanner
  | s, [] => s
  | s, a :: as => (s.ask a).2.asked as

end Scanner

/-! ## §2 Answers -/

namespace Outcome

/-- The answer that tells an outcome for the first time. -/
def answer : Outcome → Ask → Answer
  | outcome, .next => .next outcome
  | .token t, .item => .item (some (.ok t))
  | .endOfInput, .item => .item none
  | .failed e, .item => .item (some (.error e))

/-- The answer that tells it again: an error is an item once only. -/
def again : Outcome → Ask → Answer
  | outcome, .next => .next outcome
  | _, .item => .item none

end Outcome

namespace Scanner

/-- How a run ends. -/
def Run.ending (r : Run) : Outcome :=
  match r.failure with
  | none => .endOfInput
  | some e => .failed e

/-- What a question is answered when so many have been asked since the text was loaded. -/
def Run.answer (r : Run) (before : Nat) (a : Ask) : Answer :=
  match r.tokens[before]? with
  | some t => (Outcome.token t).answer a
  | none => if before = r.tokens.length then r.ending.answer a else r.ending.again a

/-- What is gathered when so many questions have been asked before: the tokens that are left, or
the error unless it has been told. -/
def Run.left (r : Run) (before : Nat) : Except ScanError (List Token) :=
  match r.failure with
  | none => .ok (r.tokens.drop before)
  | some e => if before ≤ r.tokens.length then .error e else .ok []

theorem Run.answer_cons_zero (t : Token) (r : Run) (a : Ask) :
    (r.cons t).answer 0 a = (Outcome.token t).answer a := rfl

theorem Run.answer_cons_succ (t : Token) (r : Run) (before : Nat) :
    (r.cons t).answer (before + 1) = r.answer before := by
  funext a
  simp [Run.answer, Run.cons, Run.ending]

/-- Behind the end of a run every question is answered alike. -/
theorem Run.answer_nil_succ (failure : Option ScanError) (after : Scanner) (before : Nat) :
    (Run.mk [] failure after).answer (before + 1) = (Run.mk [] failure after).ending.again := by
  funext a
  simp [Run.answer]

theorem Run.left_cons_succ (t : Token) (r : Run) (before : Nat) :
    (r.cons t).left (before + 1) = r.left before := by
  simp [Run.left, Run.cons]

theorem Run.left_zero (r : Run) : r.left 0 = r.result := by
  cases h : r.failure <;> simp [Run.left, Run.result, h]

/-! ## §3 Rest -/

/-- Until it fails, a scanner is in one state whoever asks. -/
theorem ask_of_scanning {s : Scanner} (hs : s.failure = none) (a : Ask) :
    s.ask a = (s.next.outcome.answer a, s.next.after) := by
  cases a with
  | next => rfl
  | item =>
    cases h : s.next.outcome with
    | token t => rw [ask, item?_of_token h]; rfl
    | endOfInput => rw [ask, item?_of_endOfInput hs h]; rfl
    | failed e => rw [ask, item?_of_failed hs h]; rfl

theorem ask_of_failure {s : Scanner} {e : ScanError} (hs : s.failure = some e) (a : Ask) :
    s.ask a = ((Outcome.failed e).again a, s) := by
  cases a with
  | next => rw [ask, next_of_failure s e hs]; rfl
  | item => rw [ask, item?_of_failure s e hs]; rfl

theorem ahead_of_byte?_none {c : Cursor} (h : c.byte? = none) : c.ahead = [] := by
  simpa [Cursor.byte?, Cursor.peek?] using h

/-- A scanner that has met the end meets it again, and at the same place. -/
theorem next_after_endOfInput {s : Scanner} (h : s.next.outcome = .endOfInput) :
    s.next.after.next.outcome = .endOfInput ∧ s.next.after.next.after = s.next.after := by
  have hs : s.failure = none := by
    cases hs : s.failure with
    | none => rfl
    | some e => simp [next_of_failure s e hs] at h
  unfold next step? at h ⊢
  rw [hs] at h ⊢
  cases hb : (s.cursor.eatWhile ByteClass.isBlank).byte? with
  | none =>
    have hstay : (s.cursor.eatWhile ByteClass.isBlank).eatWhile ByteClass.isBlank =
        s.cursor.eatWhile ByteClass.isBlank := by
      rw [Cursor.eatWhile_eq_advanceBy (s.cursor.eatWhile _)]
      exact Cursor.advanceBy_of_ahead_nil (ahead_of_byte?_none hb) _
    simp [hb, hstay]
  | some b =>
    simp only [hb] at h ⊢
    cases hread : read? (s.cursor.eatWhile ByteClass.isBlank) b with
    | none => simp [hs, hb, hread]
    | some reading => cases reading <;> simp [hread] at h

/-- The run of a scanner that has met the end is empty. -/
theorem run_after_endOfInput {s : Scanner} (h : s.next.outcome = .endOfInput) :
    s.next.after.run = s.run := by
  obtain ⟨houtcome, hafter⟩ := next_after_endOfInput h
  rw [run_of_endOfInput houtcome, run_of_endOfInput h, hafter]

theorem asked_of_failure {s : Scanner} {e : ScanError} (hs : s.failure = some e)
    (as : List Ask) : s.asked as = s := by
  induction as with
  | nil => rfl
  | cons a as ih =>
    rw [asked, ask_of_failure hs]
    exact ih

theorem answers_of_failure {s : Scanner} {e : ScanError} (hs : s.failure = some e)
    (as : List Ask) : s.answers as = as.mapIdx fun _ => (Outcome.failed e).again := by
  induction as with
  | nil => rfl
  | cons a as ih =>
    rw [answers, ask_of_failure hs, List.mapIdx_cons]
    exact congrArg _ ih

theorem collect_of_failure {s : Scanner} {e : ScanError} (hs : s.failure = some e) :
    s.collect.1 = .ok [] := by
  rw [collect, callBound, collectWithin, item?_of_failure s e hs]
  rfl

/-! ## §4 Sessions -/

/-- Each question is answered from the run. -/
theorem answers_eq (as : List Ask) :
    ∀ s : Scanner, s.failure = none → s.answers as = as.mapIdx s.run.answer := by
  induction as with
  | nil => exact fun _ _ => rfl
  | cons a as ih =>
    intro s hs
    rw [answers, ask_of_scanning hs, List.mapIdx_cons]
    obtain ⟨_, ⟨t, htoken, hafter, _⟩ | ⟨hend, hafter⟩ | ⟨e, hfail, hafter⟩⟩ := next_cases s hs
    · rw [htoken, run_of_token htoken, ih _ hafter]
      simp only [Run.answer_cons_zero, Run.answer_cons_succ]
    · -- the end is an answer that can be repeated, so the run may be taken to begin at it again
      have hrepeat : (fun before => s.run.answer (before + 1)) = s.run.answer := by
        funext before a
        rw [run_of_endOfInput hend, Run.answer_nil_succ]
        cases before <;> cases a <;> rfl
      rw [ih _ hafter, run_after_endOfInput hend, hrepeat, run_of_endOfInput hend, hend]
      rfl
    · rw [answers_of_failure hafter, run_of_failed hfail, hfail]
      simp only [Run.answer_nil_succ]
      rfl

/-- Behind more questions than there are tokens, a scanner is where the run has left it. -/
theorem asked_eq (as : List Ask) :
    ∀ s : Scanner, s.failure = none → s.run.tokens.length < as.length →
      s.asked as = s.run.after := by
  induction as with
  | nil => exact fun _ _ h => absurd h (Nat.not_lt_zero _)
  | cons a as ih =>
    intro s hs hlt
    rw [asked, ask_of_scanning hs]
    obtain ⟨_, ⟨t, htoken, hafter, _⟩ | ⟨hend, hafter⟩ | ⟨e, hfail, hafter⟩⟩ := next_cases s hs
    · rw [run_of_token htoken] at hlt ⊢
      exact ih _ hafter (Nat.lt_of_succ_lt_succ hlt)
    · rw [run_of_endOfInput hend]
      cases as with
      | nil => rfl
      | cons b as =>
        have hrun := run_after_endOfInput hend
        have hfew : s.next.after.run.tokens.length < (b :: as).length := by
          simp [hrun, run_of_endOfInput hend]
        rw [ih _ hafter hfew, hrun, run_of_endOfInput hend]
    · rw [run_of_failed hfail, asked_of_failure hafter]

/-- Gathering goes on from where the questions have come to. -/
theorem collect_asked (as : List Ask) :
    ∀ s : Scanner, s.failure = none → (s.asked as).collect.1 = s.run.left as.length := by
  induction as with
  | nil =>
    intro s hs
    rw [asked, collect_eq_run s hs, List.length_nil, Run.left_zero]
  | cons a as ih =>
    intro s hs
    rw [asked, ask_of_scanning hs, List.length_cons]
    obtain ⟨_, ⟨t, htoken, hafter, _⟩ | ⟨hend, hafter⟩ | ⟨e, hfail, hafter⟩⟩ := next_cases s hs
    · rw [ih _ hafter, run_of_token htoken, Run.left_cons_succ]
    · rw [ih _ hafter, run_after_endOfInput hend, run_of_endOfInput hend]
      simp [Run.left]
    · rw [asked_of_failure hafter, collect_of_failure hafter, run_of_failed hfail]
      simp [Run.left]

/-- What a run leaves behind: a scanner that has failed if the run did, and is at the end of the
text if it did not. -/
theorem after_run (passed ahead : List Char) :
    ∀ mark : Cursor, let r := (scanning passed ahead mark).run
      r.after.failure = r.failure ∧
        (r.failure = none → r.after.cursor = Cursor.between (passed ++ ahead) []) := by
  induction passed, ahead using frontInduction with
  | blank passed gap hgap =>
    intro mark
    rw [run_blank hgap]
    exact ⟨rfl, fun _ => rfl⟩
  | foreign passed gap c rest hgap hc =>
    intro mark
    rw [run_foreign hgap passed mark hc]
    exact ⟨rfl, fun h => nomatch h⟩
  | openQuote passed gap rest hgap hrest =>
    intro mark
    rw [run_openQuote hgap passed mark hrest]
    exact ⟨rfl, fun h => nomatch h⟩
  | token passed gap text rest k hgap htext hrest ih =>
    intro mark
    rw [run_token hgap passed mark htext hrest]
    obtain ⟨hfailure, hcursor⟩ := ih (Cursor.between (passed ++ gap) (text ++ rest))
    have hall : passed ++ gap ++ text ++ rest.take k.trailing ++ rest.drop k.trailing =
        passed ++ (gap ++ (text ++ rest)) := by simp
    rw [hall] at hcursor
    exact ⟨hfailure, hcursor⟩

end Scanner

open Scanner

/-- **Every question is answered from the run of the text.** Whatever a scanner has gone through,
once a text is loaded `next` and `item?` may be asked in any order. The answers are the tokens of
the text and then its end or its error, which `next` goes on to repeat and `item?` does not. What
is gathered at any moment is what is left then; and once the end or the error has been told, the
scanner stays as it is. -/
theorem session_follows_run (s : Scanner) (source : String) (as : List Ask) :
    let r := (ofString source).run
    let s' := (s.load source).asked as
    (s.load source).answers as = as.mapIdx r.answer ∧
      s'.collect.1 = r.left as.length ∧
      (r.tokens.length < as.length → s' = r.after ∧ s'.isFailed = r.failure.isSome ∧
        (r.failure = none → s'.cursor.position = source.utf8ByteSize)) := by
  intro r s'
  refine ⟨answers_eq as _ rfl, collect_asked as _ rfl, fun hlt => ?_⟩
  have hs' : s' = r.after := asked_eq as _ rfl hlt
  have hafter := after_run [] source.toList (Cursor.ofString source)
  rw [← ofString_eq_scanning] at hafter
  obtain ⟨hfailure, hcursor⟩ := hafter
  refine ⟨hs', ?_, fun hend => ?_⟩
  · rw [hs', isFailed, hfailure]
  · rw [hs', hcursor hend, Cursor.position_between, List.nil_append, ← Text.bytes_eq_encode,
      Text.length_bytes]

/-- Turns taken with a text that fails, where the error is an item once and an outcome again and
again, and with one that does not. -/
theorem session_follows_run_taking_turns :
    let e : ScanError := .unexpected 2 'é'
    let a : Token := ⟨.identifier, "a", 0⟩
    let as : List Ask := [.item, .item, .next, .item]
    let s := (ofString "\"").next.after
    (s.load "a é").answers as =
        [.item (some (.ok a)), .item (some (.error e)), .next (.failed e), .item none] ∧
      ((s.load "a é").asked as).collect.1 = .ok [] ∧
      ((s.load "a é").asked as).isFailed = true ∧
      ((s.load "a\r\n").asked as).isFailed = false ∧
      ((s.load "a\r\n").asked as).cursor.position = 3 := by
  intro e a as s
  have htoken : (ofString "a é").next.outcome = .token a := by decide +kernel
  have hfail : (ofString "a é").next.after.next.outcome = .failed e := by decide +kernel
  have hrun : (ofString "a é").run = ⟨[a], some e, (ofString "a é").next.after.next.after⟩ := by
    rw [run_of_token htoken, run_of_failed hfail]
    rfl
  have htoken' : (ofString "a\r\n").next.outcome = .token a := by decide +kernel
  have hend : (ofString "a\r\n").next.after.next.outcome = .endOfInput := by decide +kernel
  have hrun' : (ofString "a\r\n").run = ⟨[a], none, (ofString "a\r\n").next.after.next.after⟩ := by
    rw [run_of_token htoken', run_of_endOfInput hend]
    rfl
  obtain ⟨hanswers, hleft, hrest⟩ := session_follows_run s "a é" as
  obtain ⟨-, -, hrest'⟩ := session_follows_run s "a\r\n" as
  rw [hrun] at hanswers hleft hrest
  rw [hrun'] at hrest'
  have hstop := hrest' (by decide)
  exact ⟨hanswers, hleft, (hrest (by decide)).2.1, hstop.2.1, hstop.2.2 rfl⟩

end Lexeme
