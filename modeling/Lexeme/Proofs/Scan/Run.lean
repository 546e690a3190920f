/-
Lexeme.Proofs.Scan.Run — calling a scanner until it has no more tokens.

`Scanner.run` makes one call after the other up to the end of the text or the
first error. It needs no bound on the number of calls, because every token
takes the scan forward (`of_next_token`); and `collect` gathers just what it
finds (`collect_eq_run`), so the bound that is built into `collect` is never
met. On a text the run is given by the fronts of the text, one equation for
each (`run_blank`, `run_foreign`, `run_openQuote`, `run_token`). Blanks at the
front make no difference to it (`run_blank_append`), so it may be taken up right
behind the text of a token as well (`run_text`).

  §1 Progress — where a call leaves the cursor.
  §2 Runs     — `run`, and `collect` and `tokenize` by it.
  §3 Fronts   — the run of a text by what it begins with.
-/
import Lexeme.Proofs.Scan.Step
import Lexeme.Scan.Tokens

namespace Lexeme.Scanner

open Cursor

/-! ## §1 Progress -/

theorem upTo?_eq_token {k : Kind} {mark stop after : Cursor} {t : Token}
    (h : upTo? k mark stop = some (.token t after)) : after = stop := by
  obtain ⟨_, _, heq⟩ := Option.map_eq_some_iff.mp h
  exact (Reading.token.inj heq).2.symm

theorem comment?_eq_token {mark after : Cursor} {b : UInt8} {t : Token}
    (hb : mark.byte? = some b) (h : comment? mark = some (.token t after)) :
    ∃ n, 0 < n ∧ after = mark.advanceBy n := by
  unfold comment? at h
  split at h
  · rename_i distance _
    obtain ⟨_, _, heq⟩ := Option.map_eq_some_iff.mp h
    refine ⟨distance + 1, Nat.succ_pos _, ?_⟩
    rw [← (Reading.token.inj heq).2, advance_eq_advanceBy, advanceBy_advanceBy]
  · refine ⟨mark.size, ?_, upTo?_eq_token h⟩
    have hlen := congrArg List.length mark.ahead_eq
    rw [List.length_drop, Text.length_bytes] at hlen
    obtain ⟨hpos, _⟩ := List.getElem?_eq_some_iff.mp hb
    unfold size
    omega

theorem quoted?_eq_token {mark after : Cursor} {t : Token}
    (h : quoted? mark = some (.token t after)) : ∃ n, 0 < n ∧ after = mark.advanceBy n := by
  unfold quoted? at h
  split at h
  · exact ⟨_, Nat.succ_pos _, upTo?_eq_token h⟩
  · simp at h

theorem read?_eq_token {mark after : Cursor} {b : UInt8} {t : Token} (hb : mark.byte? = some b)
    (h : read? mark b = some (.token t after)) : ∃ n, 0 < n ∧ after = mark.advanceBy n := by
  have hone {k : Kind} (hk : upTo? k mark mark.advance = some (.token t after)) :
      ∃ n, 0 < n ∧ after = mark.advanceBy n :=
    ⟨1, Nat.one_pos, by rw [upTo?_eq_token hk, advance_eq_advanceBy]⟩
  unfold read? at h
  split at h
  · split at h
    · exact comment?_eq_token hb h
    · exact hone h
  · split at h
    · exact hone h
    · split at h
      · have hstop := upTo?_eq_token h
        rw [eatWhile_eq_advanceBy, advance_eq_advanceBy, advanceBy_advanceBy] at hstop
        exact ⟨_, Nat.lt_add_right _ Nat.one_pos, hstop⟩
      · split at h
        · rename_i hdigit
          refine ⟨_, ?_, by rw [upTo?_eq_token h, eatWhile_eq_advanceBy]⟩
          obtain ⟨hpos, hget⟩ := List.getElem?_eq_some_iff.mp hb
          cases hahead : mark.ahead with
          | nil => simp [hahead] at hpos
          | cons b' rest =>
            obtain rfl : b' = b := by simpa [hahead] using hget
            simp [hdigit]
        · split at h
          · exact quoted?_eq_token h
          · simp at h

/-- What a call does to a scanner that has not failed: it never takes the cursor back, takes it
forward if it gives a token, and has failed if it gives an error. -/
theorem next_cases (s : Scanner) (hs : s.failure = none) :
    s.cursor.Reaches s.next.after.cursor ∧
      ((∃ t, s.next.outcome = .token t ∧ s.next.after.failure = none ∧
          s.next.after.cursor.ahead.length < s.cursor.ahead.length) ∨
        (s.next.outcome = .endOfInput ∧ s.next.after.failure = none) ∨
        ∃ e, s.next.outcome = .failed e ∧ s.next.after.failure = some e) := by
  have hskip : s.cursor.Reaches (s.cursor.eatWhile ByteClass.isBlank) := .eatWhile _ _
  unfold next step?
  rw [hs]
  cases hb : (s.cursor.eatWhile ByteClass.isBlank).byte? with
  | none =>
    simp only [hb]
    exact ⟨hskip, .inr (.inl ⟨rfl, rfl⟩)⟩
  | some b =>
    simp only [hb]
    cases hread : read? (s.cursor.eatWhile ByteClass.isBlank) b with
    | none => exact ⟨.refl _, .inr (.inl ⟨rfl, hs⟩)⟩
    | some reading =>
      cases reading with
      | token t after =>
        obtain ⟨n, hn, rfl⟩ := read?_eq_token hb hread
        refine ⟨hskip.trans (.advanceBy _ n), .inl ⟨t, rfl, rfl, ?_⟩⟩
        obtain ⟨hpos, _⟩ := List.getElem?_eq_some_iff.mp hb
        have hle := hskip.length_ahead_le
        simp only [Option.map_some, Option.getD_some, length_ahead_advanceBy]
        omega
      | error e => exact ⟨hskip, .inr (.inr ⟨e, rfl, rfl⟩)⟩

theorem reaches_next (s : Scanner) : s.cursor.Reaches s.next.after.cursor := by
  cases hs : s.failure with
  | none => exact (next_cases s hs).1
  | some e =>
    rw [next_of_failure s e hs]
    exact .refl _

/-- A token is given by a scanner that has not failed, does not fail it, and leaves fewer bytes
ahead. -/
theorem of_next_token {s : Scanner} {t : Token} (h : s.next.outcome = .token t) :
    s.failure = none ∧ s.next.after.failure = none ∧
      s.next.after.cursor.ahead.length < s.cursor.ahead.length := by
  have hs : s.failure = none := by
    cases hs : s.failure with
    | none => rfl
    | some e => simp [next_of_failure s e hs] at h
  obtain ⟨_, ⟨_, _, hafter, hlt⟩ | ⟨hend, _⟩ | ⟨_, hfail, _⟩⟩ := next_cases s hs
  · exact ⟨hs, hafter, hlt⟩
  · simp [h] at hend
  · simp [h] at hfail

/-! ## §2 Runs -/

/-- What a scanner gives until it has no more tokens. -/
structure Run where
  tokens : List Token
  /-- The error that ended the run, unless the end of the text did. -/
  failure : Option ScanError
  /-- The scanner behind it. -/
  after : Scanner

/-- A run with one more token in front. -/
def Run.cons (t : Token) (r : Run) : Run :=
  ⟨t :: r.tokens, r.failure, r.after⟩

/-- Calls a scanner until it gives the end of the text or an error. -/
def run (s : Scanner) : Run :=
  match _h : s.next.outcome with
  | .token t => (run s.next.after).cons t
  | .endOfInput => ⟨[], none, s.next.after⟩
  | .failed e => ⟨[], some e, s.next.after⟩
termination_by s.cursor.ahead.length
decreasing_by exact (of_next_token _h).2.2

/-- The tokens of a run, if it came to the end of the text. -/
def Run.result (r : Run) : Except ScanError (List Token) :=
  match r.failure with
  | none => .ok r.tokens
  | some e => .error e

theorem Run.result_eq_ok_iff {r : Run} {ts : List Token} :
    r.result = .ok ts ↔ r.failure = none ∧ r.tokens = ts := by
  cases hr : r.failure <;> simp [result, hr]

theorem Run.result_eq_error_iff {r : Run} {e : ScanError} :
    r.result = .error e ↔ r.failure = some e := by
  cases hr : r.failure <;> simp [result, hr]

theorem Run.result_cons (t : Token) (r : Run) :
    (r.cons t).result = r.result.map (t :: ·) := by
  cases hr : r.failure <;> simp [result, cons, hr, Except.map]

theorem run_of_token {s : Scanner} {t : Token} (h : s.next.outcome = .token t) :
    s.run = s.next.after.run.cons t := by
  rw [run]
  split <;> simp_all

theorem run_of_endOfInput {s : Scanner} (h : s.next.outcome = .endOfInput) :
    s.run = ⟨[], none, s.next.after⟩ := by
  rw [run]
  split <;> simp_all

theorem run_of_failed {s : Scanner} {e : ScanError} (h : s.next.outcome = .failed e) :
    s.run = ⟨[], some e, s.next.after⟩ := by
  rw [run]
  split <;> simp_all

theorem item?_of_token {s : Scanner} {t : Token} (h : s.next.outcome = .token t) :
    s.item? = (some (.ok t), s.next.after) := by
  simp [item?, isFailed, (of_next_token h).1, h]

theorem item?_of_endOfInput {s : Scanner} (hs : s.failure = none)
    (h : s.next.outcome = .endOfInput) : s.item? = (none, s.next.after) := by
  simp [item?, isFailed, hs, h]

theorem item?_of_failed {s : Scanner} {e : ScanError} (hs : s.failure = none)
    (h : s.next.outcome = .failed e) : s.item? = (some (.error e), s.next.after) := by
  simp [item?, isFailed, hs, h]

/-- As many calls as there are bytes ahead, and one more, gather the whole run. -/
theorem collectWithin_eq_run (n : Nat) (got : List Token) (s : Scanner) (hs : s.failure = none)
    (hn : s.cursor.ahead.length < n) :
    collectWithin n got s = (s.run.result.map (got.reverse ++ ·), s.run.after) := by
  induction n generalizing got s with
  | zero => omega
  | succ n ih =>
    rw [collectWithin]
    obtain ⟨_, ⟨t, htok, hafter, hlt⟩ | ⟨hend, _⟩ | ⟨e, hfail, _⟩⟩ := next_cases s hs
    · rw [item?_of_token htok, run_of_token htok]
      show collectWithin n (t :: got) s.next.after = _
      rw [ih _ _ hafter (by omega)]
      cases hrun : s.next.after.run.failure <;> simp [Run.result, Run.cons, hrun, Except.map]
    · rw [item?_of_endOfInput hs hend, run_of_endOfInput hend]
      simp [Run.result, Except.map]
    · rw [item?_of_failed hs hfail, run_of_failed hfail]
      simp [Run.result, Except.map]

theorem collect_eq_run (s : Scanner) (hs : s.failure = none) :
    s.collect = (s.run.result, s.run.after) := by
  rw [collect, collectWithin_eq_run s.callBound [] s hs (Nat.lt_succ_self _)]
  cases hrun : s.run.failure <;> simp [Run.result, hrun, Except.map]

theorem tokenize_eq_run (source : String) : tokenize source = (ofString source).run.result := by
  rw [tokenize, collect_eq_run _ rfl]

/-! ## §3 Fronts -/

theorem ofString_eq_scanning (source : String) :
    ofString source = scanning [] source.toList (Cursor.ofString source) := by
  rw [ofString, scanning, ← ofString_eq_between]

section
variable {gap : List Char} (hgap : ∀ c ∈ gap, CharClass.isBlank c = true)
  (passed : List Char) (mark : Cursor)
include hgap

theorem run_blank :
    (scanning passed gap mark).run =
      ⟨[], none, scanning (passed ++ gap) [] (between (passed ++ gap) [])⟩ := by
  have hnext := next_blank hgap passed mark
  rw [run_of_endOfInput (by rw [hnext]), hnext]

theorem run_foreign {c : Char} (hc : CharClass.isForeign c = true) (rest : List Char) :
    (scanning passed (gap ++ c :: rest) mark).run =
      let e : ScanError := .unexpected (Text.encode (passed ++ gap)).length c
      let stop := between (passed ++ gap) (c :: rest)
      ⟨[], some e, ⟨stop, stop, some e⟩⟩ := by
  have hnext := next_foreign hgap passed mark hc rest
  rw [run_of_failed (by rw [hnext]), hnext]

theorem run_openQuote {rest : List Char} (hrest : '"' ∉ rest) :
    (scanning passed (gap ++ '"' :: rest) mark).run =
      let e : ScanError := .openQuote (Text.encode (passed ++ gap)).length
      let stop := between (passed ++ gap) ('"' :: rest)
      ⟨[], some e, ⟨stop, stop, some e⟩⟩ := by
  have hnext := next_openQuote hgap passed mark hrest
  rw [run_of_failed (by rw [hnext]), hnext]

theorem run_token {k : Kind} {text rest : List Char} (htext : Spelling k text)
    (hrest : ∀ c ∈ rest.head?, k.goesOn c = false) :
    (scanning passed (gap ++ (text ++ rest)) mark).run =
      (scanning (passed ++ gap ++ text ++ rest.take k.trailing) (rest.drop k.trailing)
        (between (passed ++ gap) (text ++ rest))).run.cons
          (tokenBehind (passed ++ gap) k text) := by
  have hnext := next_token hgap passed mark htext hrest
  rw [run_of_token (by rw [hnext]), hnext]

/-- Blanks at the front may be taken for passed already. -/
theorem run_blank_append (ahead : List Char) (mark' : Cursor) :
    (scanning passed (gap ++ ahead) mark).run = (scanning (passed ++ gap) ahead mark').run := by
  cases Lexeme.front ahead with
  | blank hgap' =>
    rw [run_blank (blank_append hgap hgap'), run_blank hgap', List.append_assoc]
  | foreign hgap' hc =>
    rw [← List.append_assoc, run_foreign (blank_append hgap hgap') passed mark hc,
      run_foreign hgap' _ mark' hc, List.append_assoc]
  | openQuote hgap' hrest =>
    rw [← List.append_assoc, run_openQuote (blank_append hgap hgap') passed mark hrest,
      run_openQuote hgap' _ mark' hrest, List.append_assoc]
  | token hgap' htext hrest =>
    rw [← List.append_assoc, run_token (blank_append hgap hgap') passed mark htext hrest,
      run_token hgap' _ mark' htext hrest, List.append_assoc passed gap]

/-- A run may be taken up right behind the text of a token. -/
theorem run_text {k : Kind} {text rest : List Char} (htext : Spelling k text)
    (hrest : ∀ c ∈ rest.head?, k.goesOn c = false) (mark' : Cursor) :
    (scanning passed (gap ++ (text ++ rest)) mark).run =
      (scanning (passed ++ gap ++ text) rest mark').run.cons
        (tokenBehind (passed ++ gap) k text) := by
  have htrailing := run_blank_append (Kind.isBlank_of_trailing hrest) (passed ++ gap ++ text)
    mark' (rest.drop k.trailing) (between (passed ++ gap) (text ++ rest))
  rw [List.take_append_drop] at htrailing
  rw [run_token hgap passed mark htext hrest, htrailing]

end

/-- A scanner gives no tokens of what it has passed. -/
theorem length_passed_le_start (passed ahead : List Char) :
    ∀ (mark : Cursor), ∀ t ∈ (scanning passed ahead mark).run.tokens,
      (Text.encode passed).length ≤ t.start := by
  induction passed, ahead using textInduction with
  | blank passed gap hgap =>
    intro mark t ht
    simp [run_blank hgap] at ht
  | foreign passed gap c rest hgap hc =>
    intro mark t ht
    simp [run_foreign hgap passed mark hc] at ht
  | openQuote passed gap rest hgap hrest =>
    intro mark t ht
    simp [run_openQuote hgap passed mark hrest] at ht
  | token passed gap text rest k hgap htext hrest ih =>
    intro mark t ht
    rw [run_text hgap passed mark htext hrest mark] at ht
    rcases List.mem_cons.mp ht with rfl | ht
    · simp [tokenBehind]
    · have := ih mark t ht
      simp only [Text.encode_append, List.length_append] at this
      omega

end Lexeme.Scanner
