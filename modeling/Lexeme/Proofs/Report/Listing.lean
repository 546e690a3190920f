/-
Lexeme.Proofs.Report.Listing — listing, counting and splitting agree.

A listing is written by a loop of its own, which makes the calls of a run one by
one as counting does, and passes over comments if they are not wanted. So what
it writes are the lines of the tokens of the run, as many of them as it is asked
for, and it ends as the run does (`output_write`, `result_write`). Where a text
fails, everything before the error has been written and nothing behind it.

  §1 Loop      — the tokens of a run that are listed, and the loop by the run.
  §2 Agreement — the three ways to go through a text find the same.
-/
import Lexeme.Proofs.Report.Line
import Lexeme.Proofs.Report.Tally

namespace Lexeme

open Scanner

/-! ## §1 Loop -/

/-- The tokens of a run that are listed: all of them, or all but the comments. -/
def Scanner.Run.listed (comments : Bool) (r : Run) : List Token :=
  r.tokens.filter fun t => comments || t.kind != .comment

/-- The number of tokens of a run that are listed, or its error with the place it was met at. -/
def Scanner.Run.listing (name : String) (comments : Bool) (r : Run) : Except Diagnostic Nat :=
  match r.failure with
  | none => .ok (r.listed comments).length
  | some e => .error (.ofScanner name r.after e)

section
variable (r : Run) {t : Token} {comments : Bool}

theorem Scanner.Run.listed_true : r.listed true = r.tokens := by
  simp [listed]

theorem Scanner.Run.listed_false :
    r.listed false = r.tokens.filter fun t => t.kind != .comment := by
  simp [listed]

theorem Scanner.Run.listed_cons_of_hidden (h : t.kind = .comment ∧ comments = false) :
    (r.cons t).listed comments = r.listed comments := by
  simp [listed, cons, h.1, h.2]

theorem Scanner.Run.listed_cons_of_shown (h : ¬ (t.kind = .comment ∧ comments = false)) :
    (r.cons t).listed comments = t :: r.listed comments := by
  have hshown : (comments || t.kind != .comment) = true := by
    cases comments with
    | true => rfl
    | false => simpa using h
  exact List.filter_cons_of_pos hshown

/-- One more line in front, whether the run comes to the end of the text or not. -/
theorem Scanner.Run.listing_cons_of_shown (name : String)
    (h : ¬ (t.kind = .comment ∧ comments = false)) :
    (r.cons t).listing name comments = (r.listing name comments).map (1 + ·) := by
  rw [listing, listing, listed_cons_of_shown r h]
  cases hr : r.failure with
  | none => simp [cons, hr, Except.map, Nat.add_comm]
  | some e => simp [cons, hr, Except.map]

end

namespace Listing

variable (name : String) (format : Format) (comments : Bool)

/-- As many calls as there are bytes ahead, and one more, write the whole run. -/
theorem writeWithin_eq (n : Nat) (output : String) (count : Nat) (events : List ScanEvent)
    (s : Scanner) (hs : s.failure = none) (hn : s.cursor.ahead.length < n) :
    let listing := writeWithin name format comments n output count events s
    listing.output = output ++ format.lines (s.run.listed comments) ∧
      listing.result = (s.run.listing name comments).map (count + ·) := by
  induction n generalizing output count events s with
  | zero => omega
  | succ n ih =>
    rw [writeWithin]
    obtain ⟨_, ⟨t, htoken, hafter, hlt⟩ | ⟨hend, _⟩ | ⟨e, hfail, _⟩⟩ := next_cases s hs
    · rw [run_of_token htoken]
      simp only [htoken]
      split
      · rename_i hhidden
        have hrest := ih output count (s.next.event.toList ++ events) _ hafter (by omega)
        rw [Run.listing, Run.listed_cons_of_hidden _ hhidden]
        exact hrest
      · rename_i hshown
        obtain ⟨houtput, hresult⟩ := ih (output ++ format.line t) (count + 1)
          (s.next.event.toList ++ events) _ hafter (by omega)
        rw [Run.listed_cons_of_shown _ hshown, Run.listing_cons_of_shown _ name hshown]
        constructor
        · rw [houtput, Format.lines, Format.lines, List.map_cons, String.join_cons,
            String.append_assoc]
        · rw [hresult]
          cases s.next.after.run.listing name comments with
          | error d => rfl
          | ok lines => exact congrArg Except.ok (Nat.add_assoc count 1 lines)
    · rw [run_of_endOfInput hend]
      simp [hend, Run.listing, Run.listed, Format.lines, Except.map]
    · rw [run_of_failed hfail]
      simp [hfail, Run.listing, Run.listed, Format.lines, Except.map]

theorem output_write (source : String) :
    (write name source format comments).output =
      format.lines ((ofString source).run.listed comments) := by
  have hloop := writeWithin_eq name format comments (ofString source).callBound "" 0
    [loading source] (ofString source) rfl (Nat.lt_succ_self _)
  rw [String.empty_append] at hloop
  exact hloop.1

theorem result_write (source : String) :
    (write name source format comments).result =
      (ofString source).run.listing name comments := by
  have hloop := writeWithin_eq name format comments (ofString source).callBound "" 0
    [loading source] (ofString source) rfl (Nat.lt_succ_self _)
  rw [write, hloop.2]
  cases (ofString source).run.listing name comments <;> simp [Except.map]

/-! ## §2 Agreement -/

/-- **Splitting, counting and listing find the same in a text.** They all succeed, with the tokens
of its run or their number, or they all fail with its error, which the reports give with the place
where the run has left the scanner. Either way the listing has a line for each token of the run in
its order, and the one without comments is the one with them when their lines are taken out. -/
theorem reports_agree (source : String) :
    let r := (ofString source).run
    let code := r.tokens.filter fun t => t.kind != .comment
    let full := write name source format true
    let bare := write name source format false
    (match r.failure with
      | none =>
        tokenize source = .ok r.tokens ∧
          (Tally.count name source).result = .ok r.tokens.length ∧
          full.result = .ok r.tokens.length ∧ bare.result = .ok code.length
      | some e =>
        let d : Diagnostic := ⟨name, r.after.cursor.line, r.after.cursor.column, e⟩
        tokenize source = .error e ∧ (Tally.count name source).result = .error d ∧
          full.result = .error d ∧ bare.result = .error d) ∧
      full.output = String.join (r.tokens.map format.line) ∧
      bare.output = String.join (code.map format.line) ∧
      bare.output = format.withoutComments full.output := by
  intro r code full bare
  have hall : r.listed true = r.tokens := r.listed_true
  have hcode : r.listed false = code := r.listed_false
  have hfull : full.output = format.lines r.tokens := hall ▸ output_write name format true source
  have hbare : bare.output = format.lines code := hcode ▸ output_write name format false source
  refine ⟨?_, hfull, hbare, ?_⟩
  · have hresult : full.result = r.listing name true := result_write name format true source
    have hresult' : bare.result = r.listing name false := result_write name format false source
    rw [tokenize_eq_run, Tally.result_count, hresult, hresult', Run.result, Run.tally,
      Run.listing, Run.listing, hall, hcode]
    cases r.failure with
    | none => exact ⟨rfl, rfl, rfl, rfl⟩
    | some e => exact ⟨rfl, rfl, rfl, rfl⟩
  · rw [hfull, Format.withoutComments_lines]
    exact hbare

end Listing
end Lexeme
