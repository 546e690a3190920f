/-
Lexeme.Proofs.Report.Tally — counting is a run.

Counting tokens makes the calls of a run one by one, with a bound on their
number that is never met. So a tally is the number of tokens of the run, or the
error that ended it with the place where the run left the scanner
(`result_count`). What it tells on the way is never an error: that is left to
whoever asked for the tally (`level_ne_error_of_mem_count`).
-/
import Lexeme.Proofs.Scan.Run
import Lexeme.Report.Tally

namespace Lexeme

open Scanner

/-- The number of tokens of a run, or its error with the place it was met at. -/
def Scanner.Run.tally (name : String) (r : Run) : Except Diagnostic Nat :=
  match r.failure with
  | none => .ok r.tokens.length
  | some e => .error (.ofScanner name r.after e)

namespace Tally

/-- As many calls as there are bytes ahead, and one more, count the whole run. -/
theorem result_countWithin (name : String) (n count : Nat) (log : List Log.Entry) (s : Scanner)
    (hs : s.failure = none) (hn : s.cursor.ahead.length < n) :
    (countWithin name n count log s).result = (s.run.tally name).map (count + ·) := by
  induction n generalizing count log s with
  | zero => omega
  | succ n ih =>
    rw [countWithin]
    obtain ⟨_, ⟨t, htoken, hafter, hlt⟩ | ⟨hend, _⟩ | ⟨e, hfail, _⟩⟩ := next_cases s hs
    · rw [run_of_token htoken]
      simp only [htoken, ih _ _ s.next.after hafter (by omega)]
      cases hrun : s.next.after.run.failure with
      | none =>
        simp only [Run.tally, Run.cons, hrun, Except.map, List.length_cons]
        rw [Nat.add_assoc, Nat.add_comm 1]
      | some e => simp [Run.tally, Run.cons, hrun, Except.map]
    · rw [run_of_endOfInput hend]
      simp [hend, Run.tally, Except.map]
    · rw [run_of_failed hfail]
      simp [hfail, Run.tally, Except.map]

theorem result_count (name source : String) :
    (count name source).result = (ofString source).run.tally name := by
  rw [count, result_countWithin name (ofString source).callBound 0 _ _ rfl (Nat.lt_succ_self _)]
  cases hrun : (ofString source).run.failure <;> simp [Run.tally, hrun, Except.map]

/-- The events of a scanner and the entry at the end are no errors. -/
theorem level_ne_error_of_mem_countWithin (name : String) (n count : Nat) {log : List Log.Entry}
    (hlog : ∀ e ∈ log, e.level ≠ .error) (s : Scanner) :
    ∀ e ∈ (countWithin name n count log s).log, e.level ≠ .error := by
  have hscan (event : ScanEvent) : (Log.Entry.scan event).level ≠ .error := by
    cases event <;> simp [Log.Entry.level]
  have hchecked (tokens : Nat) : (Log.Entry.checked name tokens).level ≠ .error := by
    simp [Log.Entry.level]
  induction n generalizing count log s with
  | zero =>
    rw [countWithin]
    intro e he
    rcases List.mem_cons.mp (List.mem_reverse.mp he) with rfl | he
    · exact hchecked count
    · exact hlog e he
  | succ n ih =>
    have hstep : ∀ e ∈ (s.next.event.map Log.Entry.scan).toList ++ log, e.level ≠ .error := by
      intro e he
      rcases List.mem_append.mp he with he | he
      · obtain ⟨event, -, rfl⟩ := Option.map_eq_some_iff.mp (Option.mem_toList.mp he)
        exact hscan event
      · exact hlog e he
    rw [countWithin]
    cases s.next.outcome with
    | token t => exact ih (count + 1) hstep s.next.after
    | endOfInput =>
      intro e he
      rcases List.mem_cons.mp (List.mem_reverse.mp he) with rfl | he
      · exact hchecked count
      · exact hstep e he
    | failed e => exact fun e he => hstep e (List.mem_reverse.mp he)

theorem level_ne_error_of_mem_count (name source : String) :
    ∀ e ∈ (count name source).log, e.level ≠ .error := by
  have hload : ∀ e ∈ [Log.Entry.scan (loading source)], e.level ≠ .error := by
    simp [Log.Entry.level, loading]
  exact level_ne_error_of_mem_countWithin name _ 0 hload (ofString source)

end Tally
end Lexeme
