/-
Lexeme.Proofs.Scan.Trace — what a scanner reports is what it did.

A scanner reports the loading of its text, and then each call by one event with what
the call has found; only a call of a scanner that has failed goes unreported, since it
finds nothing new. So the trace of a session can be read off the calls, and the calls
off the trace (`trace_tells_calls`). How the trace ends is told by the run of the text:
behind the tokens of the run comes its end, reported by every call that is made of it,
or its error, reported once (`told_eq`).

  §1 Outcomes — the event that reports an outcome, and how a log words it.
  §2 Calls    — every call reports its outcome, unless the scanner has failed.
  §3 Endings  — what is told, by the run.
-/
import Lexeme.Proofs.Scan.Interleaving
import Lexeme.Proofs.Scan.Restart
import Lexeme.Proofs.Scan.Safety
import Lexeme.Report.Log

namespace Lexeme

/-! ## §1 Outcomes -/

namespace Outcome

/-- The event that reports an outcome, in a text of so many bytes. -/
def report (size : Nat) : Outcome → ScanEvent
  | token t => .token t
  | endOfInput => .endOfInput size
  | failed e => .failed e

/-- The level and the wording that an outcome has in a log. -/
def wording (size : Nat) : Outcome → Log.Level × String
  | token t =>
    (.trace, "token kind=" ++ t.kind.name ++ " start=" ++ toString t.start ++ " text="
      ++ Text.Quoted.text t.text)
  | endOfInput => (.debug, "end of input position=" ++ toString size)
  | failed e => (.debug, "scan failed err=" ++ e.message)

/-- The token of an outcome. -/
def token? : Outcome → Option Token
  | token t => some t
  | _ => none

end Outcome

/-- The token of an event. -/
def ScanEvent.token? : ScanEvent → Option Token
  | token t => some t
  | _ => none

theorem Outcome.token?_report (size : Nat) (o : Outcome) : (o.report size).token? = o.token? := by
  cases o <;> rfl

theorem Outcome.wording_report (size : Nat) (o : Outcome) :
    let entry := Log.Entry.scan (o.report size)
    (entry.level, entry.message) = o.wording size := by
  cases o <;> rfl

/-! ## §2 Calls -/

namespace Scanner

/-- The outcomes of so many calls, without those of calls that were made when the scanner had
failed. -/
def told (s : Scanner) (calls : Nat) : List Outcome :=
  (List.range calls).filterMap fun i =>
    if (s.nexts i).isFailed then none else some (s.nexts i).next.outcome

theorem told_zero (s : Scanner) : s.told 0 = [] := rfl

theorem told_succ {s : Scanner} (hs : s.failure = none) (calls : Nat) :
    s.told (calls + 1) = s.next.outcome :: s.next.after.told calls := by
  have hfirst : (s.nexts 0).isFailed = false := by simp [nexts, isFailed, hs]
  rw [told, List.range_succ_eq_map, List.filterMap_cons, hfirst, List.filterMap_map]
  rfl

theorem nexts_of_failure {s : Scanner} {e : ScanError} (hs : s.failure = some e) (n : Nat) :
    s.nexts n = s := by
  induction n with
  | zero => rfl
  | succ n ih => rw [nexts, next_of_failure s e hs, ih]

theorem told_of_failure {s : Scanner} {e : ScanError} (hs : s.failure = some e) (calls : Nat) :
    s.told calls = [] := by
  rw [told, List.filterMap_eq_nil_iff]
  intro i _
  rw [nexts_of_failure hs]
  simp [isFailed, hs]

theorem eventsOf_of_failure {s : Scanner} {e : ScanError} (hs : s.failure = some e)
    (calls : Nat) : eventsOf calls s = [] := by
  induction calls with
  | zero => rfl
  | succ calls ih =>
    simp only [eventsOf, next_of_failure s e hs]
    exact ih

theorem source_next (s : Scanner) : s.next.after.source = s.source := by
  obtain ⟨n, hn⟩ := reaches_next s
  rw [source, source, hn, Cursor.source_advanceBy]

/-- A scanner that has not failed reports the outcome of its call. -/
theorem event_scanning (passed ahead : List Char) (mark : Cursor) :
    let s := scanning passed ahead mark
    s.next.event = some (s.next.outcome.report s.source.utf8ByteSize) := by
  cases front ahead with
  | blank hgap => simp [next_blank hgap, Outcome.report]
  | foreign hgap hc => simp [next_foreign hgap passed mark hc, Outcome.report]
  | openQuote hgap hrest => simp [next_openQuote hgap passed mark hrest, Outcome.report]
  | token hgap htext hrest => simp [next_token hgap passed mark htext hrest, Outcome.report]

theorem Upright.event {s : Scanner} (h : s.Upright) (hs : s.failure = none) :
    s.next.event = some (s.next.outcome.report s.source.utf8ByteSize) := by
  obtain ⟨passed, ahead, hstate⟩ := h.eq_scanning hs
  rw [hstate]
  exact event_scanning _ _ _

theorem Upright.eventsOf_eq {s : Scanner} (h : s.Upright) (calls : Nat) :
    eventsOf calls s = (s.told calls).map (Outcome.report s.source.utf8ByteSize) := by
  induction calls generalizing s with
  | zero => rfl
  | succ calls ih =>
    cases hs : s.failure with
    | some e => rw [eventsOf_of_failure hs, told_of_failure hs, List.map_nil]
    | none =>
      have hrest := ih h.step?.2
      rw [source_next] at hrest
      simp only [eventsOf, h.event hs, told_succ hs, hrest, List.map_cons]
      rfl

/-- What goes untold has no token. -/
theorem filterMap_token?_told (s : Scanner) (calls : Nat) :
    (s.told calls).filterMap Outcome.token? =
      (List.range calls).filterMap fun i => (s.nexts i).next.outcome.token? := by
  rw [told, List.filterMap_filterMap]
  congr 1
  funext i
  cases hs : (s.nexts i).failure with
  | none => simp [isFailed, hs]
  | some e => simp [isFailed, hs, next_of_failure _ e hs, Outcome.token?]

/-! ## §3 Endings -/

/-- What is told behind the tokens of a run, when so many calls are left. -/
def Run.told (r : Run) (calls : Nat) : List Outcome :=
  match r.failure with
  | none => List.replicate calls .endOfInput
  | some e => if calls = 0 then [] else [.failed e]

theorem told_eq (calls : Nat) {s : Scanner} (hs : s.failure = none) :
    s.told calls = (s.run.tokens.take calls).map Outcome.token ++
      s.run.told (calls - s.run.tokens.length) := by
  induction calls generalizing s with
  | zero =>
    rw [told_zero, Nat.zero_sub, Run.told]
    cases s.run.failure <;> rfl
  | succ calls ih =>
    rw [told_succ hs]
    obtain ⟨_, ⟨t, htoken, hafter, _⟩ | ⟨hend, hafter⟩ | ⟨e, hfail, hafter⟩⟩ := next_cases s hs
    · rw [ih hafter, run_of_token htoken, htoken, Run.cons, List.length_cons,
        Nat.add_sub_add_right]
      rfl
    · rw [ih hafter, run_after_endOfInput hend, run_of_endOfInput hend, hend]
      simp [Run.told, List.replicate_succ]
    · rw [told_of_failure hafter, run_of_failed hfail, hfail]
      rfl

/-- The end of the text and an error are never told in one run, and an error is told last. -/
theorem Run.ending_of_told (r : Run) (size : Nat) (ts : List Token) (calls : Nat) :
    let events := ScanEvent.loaded size ::
      (ts.map Outcome.token ++ r.told calls).map (Outcome.report size)
    (∀ e, .failed e ∉ events.dropLast) ∧
      ((∀ e, .failed e ∉ events) ∨ ∀ position, .endOfInput position ∉ events) := by
  intro events
  cases hr : r.failure with
  | none =>
    have hfails : ∀ e, .failed e ∉ events := by
      simp [events, Run.told, hr, Outcome.report]
    exact ⟨fun e he => hfails e ((List.dropLast_sublist _).mem he), .inl hfails⟩
  | some e =>
    have hends : ∀ position, .endOfInput position ∉ events := by
      simp only [events, Run.told, hr]
      split <;> simp [Outcome.report]
    refine ⟨?_, .inr hends⟩
    by_cases hcalls : calls = 0
    · intro e' he'
      have hfails : .failed e' ∉ events := by
        simp [events, Run.told, hr, hcalls, Outcome.report]
      exact hfails ((List.dropLast_sublist _).mem he')
    · have hlast : events = (.loaded size :: (ts.map Outcome.token).map (Outcome.report size)) ++
          [.failed e] := by
        simp [events, Run.told, hr, hcalls, Outcome.report]
      rw [hlast, List.dropLast_concat]
      simp [Outcome.report]

end Scanner

open Scanner

/-- **What a scanner reports is what it did.** The trace begins with the size of the text. Behind it
each call has one event, which holds the token that the call has given, the end of the text, or the
error with its message; only calls of a scanner that has failed have none. So the tokens of the
trace are the tokens that were given; an error is reported once and as the last event; and no trace
has both the end of the text and an error. -/
theorem trace_tells_calls (source : String) (calls : Nat) :
    let size := source.utf8ByteSize
    let s := ofString source
    let told := (List.range calls).filterMap fun i =>
      if (s.nexts i).isFailed then none else some (s.nexts i).next.outcome
    let events := trace source calls
    events = .loaded size :: told.map (Outcome.report size) ∧
      (events.map fun event => ((Log.Entry.scan event).level, (Log.Entry.scan event).message)) =
        (.debug, "loading scanner input len=" ++ toString size) ::
          told.map (Outcome.wording size) ∧
      events.filterMap ScanEvent.token? =
        (List.range calls).filterMap (fun i => (s.nexts i).next.outcome.token?) ∧
      (∀ e, .failed e ∉ events.dropLast) ∧
      ((∀ e, .failed e ∉ events) ∨ ∀ position, .endOfInput position ∉ events) := by
  intro size s told events
  have hevents : events = .loaded size :: told.map (Outcome.report size) :=
    congrArg (ScanEvent.loaded size :: ·) ((upright_ofString source).eventsOf_eq calls)
  have htold : told = (s.run.tokens.take calls).map Outcome.token ++
      s.run.told (calls - s.run.tokens.length) := told_eq calls rfl
  refine ⟨hevents, ?_, ?_, ?_⟩
  · rw [hevents, List.map_cons, List.map_map]
    refine congrArg _ (List.map_congr_left fun o _ => ?_)
    exact Outcome.wording_report size o
  · rw [hevents, List.filterMap_cons, List.filterMap_map]
    have htokens : ScanEvent.token? ∘ Outcome.report size = Outcome.token? :=
      funext (Outcome.token?_report size)
    rw [htokens]
    exact filterMap_token?_told s calls
  · rw [hevents, htold]
    exact s.run.ending_of_told size _ _

/-- An error is reported once, and the calls behind it are not. -/
example : trace "a é" 4 =
    [.loaded 4, .token ⟨.identifier, "a", 0⟩, .failed (.unexpected 2 'é')] := by
  decide +kernel

end Lexeme
