/-
Lexeme.Proofs.Scan.Restart — a scan can be cut wherever a token has been given.

A scanner knows its place and nothing of how it got there, and no token looks
past the place where the scan goes on behind it. So a text can be cut there:
the front alone gives the tokens given so far, and the back alone is scanned
as the scan goes on, only that offsets count from the cut. A text can be cut
where a scan fails as well. `scan_restarts` says all of it.

  §1 Calls   — so many of them, one after the other.
  §2 Fronts  — what is read of a text is read of its front alone.
  §3 Backs   — the same characters ahead, behind more that are passed.
-/
import Lexeme.Proofs.Scan.Offsets
import Lexeme.Proofs.Scan.Run

namespace Lexeme

namespace Scanner

open Cursor

/-! ## §1 Calls -/

/-- The scanner behind so many calls. -/
def nexts : Scanner → Nat → Scanner
  | s, 0 => s
  | s, n + 1 => nexts s.next.after n

/-- The tokens are what the first calls give, one each. -/
def Gives (s : Scanner) (ts : List Token) : Prop :=
  ∀ i t, ts[i]? = some t → (s.nexts i).next.outcome = .token t

theorem Gives.head {s : Scanner} {t : Token} {ts : List Token} (h : s.Gives (t :: ts)) :
    s.next.outcome = .token t :=
  h 0 t rfl

theorem Gives.tail {s : Scanner} {t : Token} {ts : List Token} (h : s.Gives (t :: ts)) :
    s.next.after.Gives ts := by
  intro i u hu
  exact h (i + 1) u (by simpa using hu)

/-! ## §2 Fronts -/

section
variable {gap text rest : List Char} {k : Kind}

/-- A front that holds what is passed with a token holds no more of what could make it longer. -/
theorem goesOn_of_front (hrest : ∀ c ∈ rest.head?, k.goesOn c = false) {front back : List Char}
    (h : rest = front ++ back) : ∀ c ∈ front.head?, k.goesOn c = false := by
  intro c hc
  cases front with
  | nil => simp at hc
  | cons d front =>
    obtain rfl : d = c := by simpa using hc
    exact hrest d (by simp [h])

/-- A token is read from any front that reaches past it, and then what is left of the front. -/
theorem front_token (hgap : ∀ c ∈ gap, CharClass.isBlank c = true) (htext : Spelling k text)
    (hrest : ∀ c ∈ rest.head?, k.goesOn c = false) {front back : List Char}
    (hfront : rest = front ++ back) {passed : List Char} {ts : List Token}
    (hrun : ∀ m, (scanning (passed ++ gap ++ text) front m).run.result = .ok ts) :
    gap ++ (text ++ rest) = gap ++ (text ++ front) ++ back ∧
      ∀ m, (scanning passed (gap ++ (text ++ front)) m).run.result =
        .ok (tokenBehind (passed ++ gap) k text :: ts) := by
  refine ⟨by simp [hfront], fun m => ?_⟩
  rw [run_text hgap passed m htext (goesOn_of_front hrest hfront) m, Run.result_cons, hrun]
  rfl

end

/-- Where the scan stands when the first calls have given tokens, the text can be cut: the front
splits into just these tokens. -/
theorem exists_front_of_gives (ts : List Token) (passed ahead : List Char) (mark : Cursor)
    (h : (scanning passed ahead mark).Gives ts) :
    ∃ front back mark', ahead = front ++ back ∧
      (scanning passed ahead mark).nexts ts.length = scanning (passed ++ front) back mark' ∧
      ∀ m, (scanning passed front m).run.result = .ok ts := by
  induction ts generalizing passed ahead mark with
  | nil =>
    refine ⟨[], ahead, mark, rfl, by simp [nexts], fun m => ?_⟩
    rw [run_blank (by simp)]
    rfl
  | cons t ts ih =>
    have hfirst := h.head
    have hlater := h.tail
    show ∃ front back mark', ahead = front ++ back ∧
      (scanning passed ahead mark).next.after.nexts ts.length = _ ∧ _
    cases front ahead with
    | blank hgap => simp [next_blank hgap] at hfirst
    | foreign hgap hc => simp [next_foreign hgap passed mark hc] at hfirst
    | openQuote hgap hrest => simp [next_openQuote hgap passed mark hrest] at hfirst
    | @token gap text rest k hgap htext hrest =>
      rw [next_token hgap passed mark htext hrest] at hfirst hlater ⊢
      obtain rfl := Outcome.token.inj hfirst
      obtain ⟨front, back, mark', hfront, hstop, hrun⟩ := ih _ _ _ hlater
      -- the front that is sought begins with what is passed with the token
      have hsplit : rest = rest.take k.trailing ++ front ++ back := by
        rw [List.append_assoc, ← hfront, List.take_append_drop]
      have hbehind (m : Cursor) : (scanning (passed ++ gap ++ text) (rest.take k.trailing ++ front)
          m).run.result = .ok ts := by
        rw [run_blank_append (Kind.isBlank_of_trailing hrest) _ m front m, hrun]
      obtain ⟨hcut, hruns⟩ := front_token hgap htext hrest hsplit hbehind
      refine ⟨_, back, mark', hcut, ?_, hruns⟩
      rw [hstop]
      simp

/-- Where a scan fails the text can be cut as well: the front splits into the tokens before. -/
theorem exists_front_of_failure (passed ahead : List Char) :
    ∀ (mark : Cursor) (e : ScanError), (scanning passed ahead mark).run.failure = some e →
      ∃ front back, ahead = front ++ back ∧
        (Text.encode (passed ++ front)).length = e.offset ∧
        ∀ m, (scanning passed front m).run.result =
          .ok (scanning passed ahead mark).run.tokens := by
  induction passed, ahead using textInduction with
  | blank passed gap hgap =>
    intro mark e he
    simp [run_blank hgap] at he
  | foreign passed gap c rest hgap hc =>
    intro mark e he
    rw [run_foreign hgap passed mark hc] at he ⊢
    obtain rfl := Option.some.inj he
    refine ⟨gap, c :: rest, rfl, rfl, fun m => ?_⟩
    rw [run_blank hgap]
    rfl
  | openQuote passed gap rest hgap hrest =>
    intro mark e he
    rw [run_openQuote hgap passed mark hrest] at he ⊢
    obtain rfl := Option.some.inj he
    refine ⟨gap, '"' :: rest, rfl, rfl, fun m => ?_⟩
    rw [run_blank hgap]
    rfl
  | token passed gap text rest k hgap htext hrest ih =>
    intro mark e he
    rw [run_text hgap passed mark htext hrest mark] at he ⊢
    obtain ⟨front, back, hfront, hoffset, hrun⟩ := ih _ e he
    obtain ⟨hcut, hruns⟩ := front_token hgap htext hrest hfront hrun
    refine ⟨_, back, hcut, ?_, hruns⟩
    rw [← hoffset]
    simp

/-! ## §3 Backs -/

/-- Scanners that have the same ahead of them, or have failed alike, one of them behind some more
characters. Where their last calls began makes no difference to the next. -/
inductive Behind (front : List Char) : Scanner → Scanner → Prop
  | scanning (passed ahead : List Char) (mark mark' : Cursor) :
    Behind front (scanning passed ahead mark) (scanning (front ++ passed) ahead mark')
  | failed (passed ahead : List Char) (e : ScanError) :
    Behind front ⟨between passed ahead, between passed ahead, some e⟩
      ⟨between (front ++ passed) ahead, between (front ++ passed) ahead,
        some (e.moved ((Text.encode front).length + ·))⟩

theorem Behind.of_failure (front passed ahead : List Char) {e e' : ScanError}
    {event event' : Option ScanEvent} (he : e' = e.moved ((Text.encode front).length + ·))
    (hevent : event' = event.map (ScanEvent.moved ((Text.encode front).length + ·))) :
    let here : Step := ⟨.failed e, event, ⟨between passed ahead, between passed ahead, some e⟩⟩
    let there : Step := ⟨.failed e', event',
      ⟨between (front ++ passed) ahead, between (front ++ passed) ahead, some e'⟩⟩
    here.Farther (Text.encode front).length there ∧ Behind front here.after there.after := by
  subst he hevent
  refine ⟨⟨rfl, rfl, ?_, ?_⟩, .failed passed ahead e⟩ <;> simp

/-- One call of each finds the same. -/
theorem Behind.next {front : List Char} {here there : Scanner} (h : Behind front here there) :
    here.next.Farther (Text.encode front).length there.next ∧
      Behind front here.next.after there.next.after := by
  cases h with
  | failed passed ahead e =>
    rw [next_of_failure _ _ rfl, next_of_failure _ _ rfl]
    exact Behind.of_failure front passed ahead rfl rfl
  | scanning passed ahead mark mark' =>
    cases Lexeme.front ahead with
    | blank hgap =>
      rw [next_blank hgap, next_blank hgap, List.append_assoc]
      refine ⟨⟨rfl, ?_, ?_, ?_⟩, .scanning _ _ _ _⟩ <;> simp [ScanEvent.moved, Scanner.scanning]
    | @foreign gap rest c hgap hc =>
      rw [next_foreign hgap _ _ hc, next_foreign hgap _ _ hc, List.append_assoc]
      have he : ScanError.unexpected (Text.encode (front ++ (passed ++ gap))).length c =
          (ScanError.unexpected (Text.encode (passed ++ gap)).length c).moved
            ((Text.encode front).length + ·) := by
        simp [ScanError.moved]
      exact Behind.of_failure front (passed ++ gap) (c :: rest) he (by rw [he]; rfl)
    | @openQuote gap rest hgap hrest =>
      rw [next_openQuote hgap _ _ hrest, next_openQuote hgap _ _ hrest, List.append_assoc]
      have he : ScanError.openQuote (Text.encode (front ++ (passed ++ gap))).length =
          (ScanError.openQuote (Text.encode (passed ++ gap)).length).moved
            ((Text.encode front).length + ·) := by
        simp [ScanError.moved]
      exact Behind.of_failure front (passed ++ gap) ('"' :: rest) he (by rw [he]; rfl)
    | @token gap text rest k hgap htext hrest =>
      rw [next_token hgap _ _ htext hrest, next_token hgap _ _ htext hrest]
      have htoken : tokenBehind (front ++ passed ++ gap) k text =
          (tokenBehind (passed ++ gap) k text).moved ((Text.encode front).length + ·) := by
        simp [tokenBehind, Token.moved]
      have hpassed : front ++ passed ++ gap ++ text ++ rest.take k.trailing =
          front ++ (passed ++ gap ++ text ++ rest.take k.trailing) := by simp
      rw [htoken, hpassed]
      refine ⟨⟨rfl, rfl, ?_, ?_⟩, .scanning _ _ _ _⟩ <;> simp [Scanner.scanning]

theorem Behind.nexts {front : List Char} {here there : Scanner} (h : Behind front here there)
    (n : Nat) : Behind front (here.nexts n) (there.nexts n) := by
  induction n generalizing here there with
  | zero => exact h
  | succ n ih => exact ih h.next.2

/-- So do all calls of a run. -/
theorem Behind.run {front : List Char} {here there : Scanner} (h : Behind front here there) :
    let move := ((Text.encode front).length + ·)
    there.run.tokens = here.run.tokens.map (Token.moved move) ∧
      there.run.failure = here.run.failure.map (ScanError.moved move) := by
  intro move
  obtain ⟨hfarther, hafter⟩ := h.next
  have houtcome := hfarther.outcome
  cases hnext : here.next.outcome with
  | token t =>
    rw [hnext] at houtcome
    obtain ⟨htokens, hfailure⟩ := hafter.run
    rw [run_of_token hnext, run_of_token houtcome]
    exact ⟨by rw [Run.cons, htokens]; rfl, hfailure⟩
  | endOfInput =>
    rw [hnext] at houtcome
    rw [run_of_endOfInput hnext, run_of_endOfInput houtcome]
    exact ⟨rfl, rfl⟩
  | failed e =>
    rw [hnext] at houtcome
    rw [run_of_failed hnext, run_of_failed houtcome]
    exact ⟨rfl, rfl⟩
termination_by here.cursor.ahead.length
decreasing_by exact (of_next_token hnext).2.2

end Scanner

open Scanner

/-- **A scan can be cut and taken up again.** Where it stands when its first calls have given
tokens, the text is cut in two: the front has just these tokens, and all later calls find what
calls on the back alone find, farther on by the length of the front. Where it fails, the front has
just the tokens before. -/
theorem scan_restarts (source : String) :
    (∀ ts, (ofString source).Gives ts →
      let s := (ofString source).nexts ts.length
      ∃ front back, front ++ back = source ∧ front.utf8ByteSize = s.cursor.position ∧
        tokenize front = .ok ts ∧
        ∀ n, ((ofString back).nexts n).next.Farther s.cursor.position (s.nexts n).next) ∧
    ∀ e, (ofString source).run.failure = some e →
      ∃ front back, front ++ back = source ∧ front.utf8ByteSize = e.offset ∧
        tokenize front = .ok (ofString source).run.tokens := by
  have htokenize (cs : List Char) : tokenize (String.ofList cs) =
      (scanning [] cs (Cursor.ofString (String.ofList cs))).run.result := by
    rw [tokenize_eq_run, ofString_eq_scanning, String.toList_ofList]
  have hwhole {front back : List Char} (h : source.toList = front ++ back) :
      String.ofList front ++ String.ofList back = source := by
    rw [← String.ofList_append, ← h, String.ofList_toList]
  rw [ofString_eq_scanning]
  constructor
  · intro ts hts s
    obtain ⟨front, back, mark', hcut, hstop, hrun⟩ := exists_front_of_gives ts _ _ _ hts
    have hs : s = scanning front back mark' := hstop
    have hposition : s.cursor.position = (Text.encode front).length := by
      rw [hs]
      exact Cursor.position_between front back
    refine ⟨.ofList front, .ofList back, hwhole hcut, ?_, ?_, fun n => ?_⟩
    · rw [hposition, Text.utf8ByteSize_ofList]
    · rw [htokenize]
      exact hrun _
    · have hbehind : Behind front (ofString (String.ofList back)) s := by
        rw [ofString_eq_scanning, String.toList_ofList, hs]
        simpa using @Behind.scanning front [] back (Cursor.ofString (.ofList back)) mark'
      rw [hposition]
      exact (hbehind.nexts n).next.1
  · intro e he
    obtain ⟨front, back, hcut, hoffset, hrun⟩ := exists_front_of_failure _ _ _ e he
    refine ⟨.ofList front, .ofList back, hwhole hcut, ?_, ?_⟩
    · rw [Text.utf8ByteSize_ofList]
      exact hoffset
    · rw [htokenize]
      exact hrun _

/-- A cut between the CR and the LF that end a comment, and one in front of a quote that is not
closed. -/
theorem scan_restarts_in_line_end :
    let source := "a//é\r\n\""
    let ts : List Token := [⟨.identifier, "a", 0⟩, ⟨.comment, "//é", 1⟩]
    let s := (ofString source).nexts 2
    (ofString source).Gives ts ∧ s.cursor.position = 6 ∧
      (∃ front back, front ++ back = source ∧ front.utf8ByteSize = 6 ∧ tokenize front = .ok ts ∧
        ∀ n, ((ofString back).nexts n).next.Farther 6 (s.nexts n).next) ∧
      (ofString source).run.failure = some (.openQuote 7) ∧
      ∃ front back, front ++ back = source ∧ front.utf8ByteSize = 7 ∧
        tokenize front = .ok (ofString source).run.tokens := by
  intro source ts s
  have hfirst : (ofString source).next.outcome = .token ⟨.identifier, "a", 0⟩ := by decide +kernel
  have hsecond : (ofString source).next.after.next.outcome = .token ⟨.comment, "//é", 1⟩ := by
    decide +kernel
  have hthird : s.next.outcome = .failed (.openQuote 7) := by decide +kernel
  have hgives : (ofString source).Gives ts := by
    intro i t ht
    match i with
    | 0 =>
      obtain rfl := Option.some.inj ht
      exact hfirst
    | 1 =>
      obtain rfl := Option.some.inj ht
      exact hsecond
    | i + 2 => simp [ts] at ht
  have hfailure : (ofString source).run.failure = some (.openQuote 7) := by
    rw [run_of_token hfirst, run_of_token hsecond]
    exact congrArg Run.failure (run_of_failed hthird)
  have hposition : s.cursor.position = 6 := by decide +kernel
  obtain ⟨htokens, hfails⟩ := scan_restarts source
  have hcut := htokens ts hgives
  exact ⟨hgives, hposition, hposition ▸ hcut, hfailure, hfails _ hfailure⟩

end Lexeme
