/-
Lexeme.Proofs.Scan.Progress — every loop over a scanner comes to its end.

None of the loops over a scanner counts its rounds: each goes on as long as tokens
come. What ends them is that a call that gives a token passes the token, and a token
has a byte at least, while no call passes the end of the text or goes back
(`Upright.progress`). `Loops` is such a loop without a bound on its calls. The loops
that gather, count and list tokens have one, so that they can be seen to end; it is
never met, and they are the loops without it (`Bounds.loops`), of one call for each
token of the run and one more (`scan_terminates`).

  §1 Calls — what a call does to the position.
  §2 Loops — so many calls, and what they come to.
  §3 Works — gathering, counting and listing tokens, call by call.
-/
import Lexeme.Proofs.Cursor.Sweep
import Lexeme.Proofs.Report.Listing
import Lexeme.Proofs.Scan.Safety

namespace Lexeme

/-! ## §1 Calls -/

theorem Spelling.length_encode_pos {k : Kind} {text : List Char} (h : Spelling k text) :
    1 ≤ (Text.encode text).length := by
  obtain ⟨c, cs, rfl⟩ := List.exists_cons_of_ne_nil h.ne_nil
  obtain ⟨b, bs, henc, _⟩ := Text.utf8EncodeChar_shape c
  simp [Text.encode_cons, henc]

namespace Scanner

open Cursor

/-- What the next call does to the position: it does not take it back, nor out of the text, passes
a token with all its bytes, of which there is at least one, and finds the end of the text nowhere
else than there. -/
structure Progress (s : Scanner) : Prop where
  not_back : s.cursor.position ≤ s.next.after.cursor.position
  in_text : s.next.after.cursor.position ≤ s.source.utf8ByteSize
  token : ∀ t, s.next.outcome = .token t →
    1 ≤ t.text.utf8ByteSize ∧
      s.cursor.position + t.text.utf8ByteSize ≤ s.next.after.cursor.position
  endOfInput : s.next.outcome = .endOfInput →
    s.next.after.cursor.position = s.source.utf8ByteSize

theorem progress_scanning (passed ahead : List Char) (mark : Cursor) :
    Progress (scanning passed ahead mark) := by
  cases front ahead with
  | blank hgap => constructor <;> simp [next_blank hgap]
  | foreign hgap hc => constructor <;> simp [next_foreign hgap passed mark hc]
  | openQuote hgap hrest => constructor <;> simp [next_openQuote hgap passed mark hrest]
  | @token gap text rest k hgap htext hrest =>
    have hpos := htext.length_encode_pos
    have htrailing : (Text.encode rest).length =
        (Text.encode (rest.take k.trailing)).length +
          (Text.encode (rest.drop k.trailing)).length := by
      rw [← List.length_append, ← Text.encode_append, List.take_append_drop]
    constructor <;> simp [next_token hgap passed mark htext hrest, tokenBehind] <;> omega

theorem Upright.progress {s : Scanner} (h : s.Upright) : Progress s := by
  cases hs : s.failure with
  | some e =>
    have hin := h.safe.position_le
    constructor <;> simp [next_of_failure s e hs, hin]
  | none =>
    obtain ⟨passed, ahead, hstate⟩ := h.eq_scanning hs
    rw [hstate]
    exact progress_scanning _ _ _

/-- Every token of a run takes a byte at least. -/
theorem length_tokens_run_le (s : Scanner) : s.run.tokens.length ≤ s.cursor.ahead.length := by
  induction s using run.induct with
  | case1 s t htoken ih =>
    have hlt := (of_next_token htoken).2.2
    rw [run_of_token htoken, Run.cons, List.length_cons]
    omega
  | case2 s hend => simp [run_of_endOfInput hend]
  | case3 s e hfail => simp [run_of_failed hfail]

/-! ## §2 Loops -/

/-- A loop over the calls of a scanner, without a bound on their number. A round makes one call and
works what it finds into what the loop has so far; the loop then goes on behind the call, or has
its result. So many calls come to this result. -/
inductive Loops {σ ρ : Type} (work : σ → Step → σ ⊕ ρ) : Nat → σ → Scanner → ρ → Prop
  | done {a : σ} {s : Scanner} {r : ρ} (h : work a s.next = .inr r) : Loops work 1 a s r
  | again {n : Nat} {a b : σ} {s : Scanner} {r : ρ} (h : work a s.next = .inl b)
    (hrest : Loops work n b s.next.after r) : Loops work (n + 1) a s r

/-- A loop with a bound makes the rounds of one without, as long as the bound allows: behind a
token it goes on, and behind anything else it has its result. -/
structure Bounds {σ ρ : Type} (work : σ → Step → σ ⊕ ρ) (bounded : Nat → σ → Scanner → ρ) :
    Prop where
  token : ∀ n a s t, s.next.outcome = .token t →
    ∃ b, work a s.next = .inl b ∧ bounded (n + 1) a s = bounded n b s.next.after
  endOfInput : ∀ n a s, s.failure = none → s.next.outcome = .endOfInput →
    work a s.next = .inr (bounded (n + 1) a s)
  failed : ∀ n a s e, s.failure = none → s.next.outcome = .failed e →
    work a s.next = .inr (bounded (n + 1) a s)

/-- A bound of more calls than bytes are ahead is not met: the loop without it comes to the same
result, with a call for each token of the run and one for what ends it. -/
theorem Bounds.loops {σ ρ : Type} {work : σ → Step → σ ⊕ ρ} {bounded : Nat → σ → Scanner → ρ}
    (h : Bounds work bounded) (n : Nat) (a : σ) {s : Scanner} (hs : s.failure = none)
    (hn : s.cursor.ahead.length < n) :
    Loops work (s.run.tokens.length + 1) a s (bounded n a s) := by
  induction n generalizing a s with
  | zero => omega
  | succ n ih =>
    obtain ⟨_, ⟨t, htoken, hafter, hlt⟩ | ⟨hend, _⟩ | ⟨e, hfail, _⟩⟩ := next_cases s hs
    · obtain ⟨b, hwork, hbounded⟩ := h.token n a s t htoken
      rw [run_of_token htoken, hbounded]
      exact .again hwork (ih b hafter (by omega))
    · rw [run_of_endOfInput hend]
      exact .done (h.endOfInput n a s hs hend)
    · rw [run_of_failed hfail]
      exact .done (h.failed n a s e hs hfail)

/-! ## §3 Works -/

/-- A round of gathering: `got` are the tokens so far, the latest first. -/
def gathering (got : List Token) (step : Step) :
    List Token ⊕ Except ScanError (List Token) × Scanner :=
  match step.outcome with
  | .token t => .inl (t :: got)
  | .endOfInput => .inr (.ok got.reverse, step.after)
  | .failed e => .inr (.error e, step.after)

/-- A round of counting: the number of tokens so far, and the log with its latest entry first. -/
def counting (name : String) (so : Nat × List Log.Entry) (step : Step) :
    (Nat × List Log.Entry) ⊕ Tally :=
  let log := (step.event.map Log.Entry.scan).toList ++ so.2
  match step.outcome with
  | .token _ => .inl (so.1 + 1, log)
  | .endOfInput => .inr ⟨.ok so.1, (Log.Entry.checked name so.1 :: log).reverse⟩
  | .failed e => .inr ⟨.error (.ofScanner name step.after e), log.reverse⟩

/-- A round of listing: the lines so far, their number, and the events with the latest first. -/
def listing (name : String) (format : Listing.Format) (comments : Bool)
    (so : String × Nat × List ScanEvent) (step : Step) :
    (String × Nat × List ScanEvent) ⊕ Listing :=
  let (output, count, events) := so
  let events := step.event.toList ++ events
  match step.outcome with
  | .token t =>
    if t.kind = .comment ∧ comments = false then .inl (output, count, events)
    else .inl (output ++ format.line t, count + 1, events)
  | .endOfInput => .inr ⟨output, .ok count, events.reverse⟩
  | .failed e => .inr ⟨output, .error (.ofScanner name step.after e), events.reverse⟩

theorem bounds_gathering : Bounds gathering collectWithin where
  token n got s t htoken := by
    refine ⟨t :: got, by simp only [gathering, htoken], ?_⟩
    rw [collectWithin, item?_of_token htoken]
  endOfInput n got s hs hend := by
    rw [collectWithin, item?_of_endOfInput hs hend]
    simp only [gathering, hend]
  failed n got s e hs hfail := by
    rw [collectWithin, item?_of_failed hs hfail]
    simp only [gathering, hfail]

theorem bounds_counting (name : String) :
    Bounds (counting name) fun n so s => Tally.countWithin name n so.1 so.2 s where
  token n so s t htoken := by
    refine ⟨(so.1 + 1, (s.next.event.map Log.Entry.scan).toList ++ so.2), ?_, ?_⟩
    · simp only [counting, htoken]
    · simp only [Tally.countWithin, htoken]
  endOfInput n so s _ hend := by simp only [counting, Tally.countWithin, hend]
  failed n so s e _ hfail := by simp only [counting, Tally.countWithin, hfail]

theorem bounds_listing (name : String) (format : Listing.Format) (comments : Bool) :
    Bounds (listing name format comments) fun n so s =>
      Listing.writeWithin name format comments n so.1 so.2.1 so.2.2 s where
  token n so s t htoken := by
    by_cases hhidden : t.kind = .comment ∧ comments = false
    · refine ⟨(so.1, so.2.1, s.next.event.toList ++ so.2.2), ?_, ?_⟩
      · simp only [listing, htoken, if_pos hhidden]
      · simp only [Listing.writeWithin, htoken, if_pos hhidden]
    · refine ⟨(so.1 ++ format.line t, so.2.1 + 1, s.next.event.toList ++ so.2.2), ?_, ?_⟩
      · simp only [listing, htoken, if_neg hhidden]
      · simp only [Listing.writeWithin, htoken, if_neg hhidden]
  endOfInput n so s _ hend := by simp only [listing, Listing.writeWithin, hend]
  failed n so s e _ hfail := by simp only [listing, Listing.writeWithin, hfail]

/-- No result is of more tokens than the run has. -/
theorem Run.le_of_result_ok {r : Run} {ts : List Token} (h : r.result = .ok ts) :
    ts.length ≤ r.tokens.length := by
  obtain ⟨-, rfl⟩ := Run.result_eq_ok_iff.mp h
  exact Nat.le_refl _

theorem Run.le_of_tally_ok {r : Run} {name : String} {count : Nat}
    (h : r.tally name = .ok count) : count ≤ r.tokens.length := by
  cases hr : r.failure with
  | some e => simp [Run.tally, hr] at h
  | none =>
    simp only [Run.tally, hr, Except.ok.injEq] at h
    exact Nat.le_of_eq h.symm

theorem Run.le_of_listing_ok {r : Run} {name : String} {comments : Bool} {count : Nat}
    (h : r.listing name comments = .ok count) : count ≤ r.tokens.length := by
  cases hr : r.failure with
  | some e => simp [Run.listing, hr] at h
  | none =>
    simp only [Run.listing, hr, Except.ok.injEq] at h
    rw [← h]
    exact List.length_filter_le _ _

end Scanner

open Scanner

/-- **Every loop over a scanner comes to its end.** Whatever has been done with scanners, the next
call of each has an outcome and makes progress. So on every text the loops that gather, count and
list its tokens need no bound: they end after one call for each token of its run and one more, no
more calls in all than the text has bytes and one, with no more tokens than the text has bytes. And
the loop that eats bytes ends for every test and wherever the cursor is, with no more rounds than
bytes are ahead. -/
theorem scan_terminates (actions : List Action) (source name : String) (format : Listing.Format)
    (comments : Bool) (ms : List Cursor.Move) (p : UInt8 → Bool) :
    let s := ofString source
    let calls := s.run.tokens.length + 1
    let tally := Tally.count name source
    let written := Listing.write name source format comments
    let c := (Cursor.ofString source).moves ms
    (∀ s ∈ bench actions, s.step? = some s.next ∧ Progress s) ∧
      calls ≤ source.utf8ByteSize + 1 ∧
      Loops gathering calls [] s s.collect ∧
      Loops (counting name) calls (0, [.scan (loading source)]) s tally ∧
      Loops (listing name format comments) calls ("", 0, [loading source]) s written ∧
      (∀ ts, tokenize source = .ok ts → ts.length ≤ source.utf8ByteSize) ∧
      (∀ n, tally.result = .ok n → n ≤ source.utf8ByteSize) ∧
      (∀ n, written.result = .ok n → n ≤ source.utf8ByteSize) ∧
      ∃ rounds ≤ c.ahead.length, Cursor.Eats p rounds c (c.eatWhile p) := by
  intro s calls tally written c
  have hahead : s.cursor.ahead.length = source.utf8ByteSize := Text.length_bytes source
  have htokens : s.run.tokens.length ≤ source.utf8ByteSize := hahead ▸ length_tokens_run_le s
  have hbound : s.cursor.ahead.length < s.callBound := Nat.lt_succ_self _
  refine ⟨fun t ht => ?_, Nat.succ_le_succ htokens,
    bounds_gathering.loops _ [] rfl hbound, (bounds_counting name).loops _ _ rfl hbound,
    (bounds_listing name format comments).loops _ _ rfl hbound, ?_, ?_, ?_, ?_⟩
  · have hup := upright_bench actions t ht
    exact ⟨hup.step?.1, hup.progress⟩
  · intro ts hts
    rw [tokenize_eq_run] at hts
    exact Nat.le_trans (Run.le_of_result_ok hts) htokens
  · intro n hn
    have hrun : s.run.tally name = .ok n := (Tally.result_count name source).symm.trans hn
    exact Nat.le_trans (Run.le_of_tally_ok hrun) htokens
  · intro n hn
    have hrun : s.run.listing name comments = .ok n :=
      (Listing.result_write name format comments source).symm.trans hn
    exact Nat.le_trans (Run.le_of_listing_ok hrun) htokens
  · exact ⟨_, (List.takeWhile_sublist p).length_le, (Cursor.inText_moves source ms).eats_eatWhile p⟩

/-- A scanner that stands in the middle of a line end, and a text of two tokens, one of which is a
comment that is not listed. -/
theorem scan_terminates_in_line_end :
    let source := "//é\r\n\"\r\""
    let s := (ofString source).call .next
    let ts : List Token := [⟨.comment, "//é", 0⟩, ⟨.quote, "\"\r\"", 6⟩]
    s ∈ bench [.start source, .call 0 .next] ∧ s.cursor.position = 5 ∧ Progress s ∧
      Loops gathering 3 [] (ofString source) (ofString source).collect ∧
      (tokenize source = .ok ts ∧ ts.length ≤ 9) ∧
      ((Tally.count "a" source).result = .ok 2 ∧ 2 ≤ 9) ∧
      ((Listing.write "a" source .json false).result = .ok 1 ∧ 1 ≤ 9) := by
  intro source s ts
  have hfirst : (ofString source).next.outcome = .token ⟨.comment, "//é", 0⟩ := by decide +kernel
  have hsecond : (ofString source).next.after.next.outcome = .token ⟨.quote, "\"\r\"", 6⟩ := by
    decide +kernel
  have hend : (ofString source).next.after.next.after.next.outcome = .endOfInput := by
    decide +kernel
  have hrun : (ofString source).run =
      ⟨ts, none, (ofString source).next.after.next.after.next.after⟩ := by
    rw [run_of_token hfirst, run_of_token hsecond, run_of_endOfInput hend]
    rfl
  have htokens : tokenize source = .ok ts := by rw [tokenize_eq_run, hrun]; rfl
  have hcount : (Tally.count "a" source).result = .ok 2 := by
    rw [Tally.result_count, hrun]
    rfl
  have hwrite : (Listing.write "a" source .json false).result = .ok 1 := by
    rw [Listing.result_write, hrun]
    rfl
  have hmem : s ∈ bench [.start source, .call 0 .next] := List.mem_singleton.mpr rfl
  obtain ⟨hprogress, -, hloops, -, -, hts, hn, hm, -⟩ :=
    scan_terminates [.start source, .call 0 .next] source "a" .json false [] ByteClass.isDigit
  rw [hrun] at hloops
  exact ⟨hmem, by decide +kernel, (hprogress s hmem).2, hloops, ⟨htokens, hts ts htokens⟩,
    ⟨hcount, hn 2 hcount⟩, hwrite, hm 1 hwrite⟩

end Lexeme
