/-
Lexeme.Proofs.Scan.Lines — the lines that tokens are on.

Three parts of a scan know what a line end is: a comment stops in front of one,
blanks include them, and the line counter goes up behind one. They agree. A token
stays on its line, unless it is a quoted string, and that goes on for as many
lines as it has line breaks; and whatever comes behind a comment is on a later
line (`tokens_on_lines`).

Where a comment ends with CR and LF, the scan passes the CR with it and leaves the
counter as it was. The line goes up only when the LF is passed as a blank of the
next call, so a single call cannot show it: what holds between two tokens is told by
the line break between them, whatever call passes it (`exists_lineBreak`).

  §1 Counting — the line of an offset, and line breaks of a piece of a text.
  §2 Tokens   — the lines of one token.
  §3 Runs     — what comes behind a comment.
-/
import Lexeme.Proofs.Cursor.Prefix
import Lexeme.Proofs.Scan.Reconstruction
import Lexeme.Proofs.Scan.Session

namespace Lexeme

/-! ## §1 Counting -/

/-- The line of a cursor that has been moved to an offset of a text. -/
def lineOf (source : String) (offset : Nat) : Nat :=
  ((Cursor.ofString source).advanceBy offset).line

theorem Cursor.line_le_advance (c : Cursor) : c.line ≤ c.advance.line := by
  cases h : c.ahead with
  | nil =>
    have hsame := advance_of_isAtEnd c (by simp [isAtEnd, h])
    exact Nat.le_of_eq (congrArg Cursor.line hsame).symm
  | cons b rest =>
    rw [line_advance h]
    split <;> omega

theorem Cursor.line_le_advanceBy (c : Cursor) (n : Nat) : c.line ≤ (c.advanceBy n).line := by
  induction n generalizing c with
  | zero => exact Nat.le_refl _
  | succ n ih =>
    rw [advanceBy]
    split
    · exact Nat.le_refl _
    · exact Nat.le_trans c.line_le_advance (ih c.advance)

/-- Lines are never counted down. -/
theorem lineOf_mono (source : String) {p q : Nat} (h : p ≤ q) :
    lineOf source p ≤ lineOf source q := by
  have hmove := Cursor.line_le_advanceBy ((Cursor.ofString source).advanceBy p) (q - p)
  rwa [Cursor.advanceBy_advanceBy, Nat.add_sub_cancel' h] at hmove

namespace Place

/-- Where only LF ends lines, the line goes up with each of them. -/
theorem line_behind_of_not_cr (p : Place) {cs : List Char} (h : '\r' ∉ cs) (ahead : List Char) :
    (p.behind cs ahead).line = p.line + cs.count '\n' := by
  induction cs generalizing p with
  | nil => rfl
  | cons c cs ih =>
    have hcs : '\r' ∉ cs := fun hmem => h (by simp [hmem])
    have hc : c ≠ '\r' := fun heq => h (by simp [heq])
    show ((p.step c (cs ++ ahead)).behind cs ahead).line = _
    rw [ih _ hcs, step_of_ne_cr p hc]
    by_cases hlf : c = '\n'
    · simp [hlf, Nat.add_assoc, Nat.add_comm 1]
    · simp [hlf]

/-- The line goes up with every line break. -/
theorem line_behind (p : Place) (cs : List Char) {ahead : List Char} (h : ahead.head? ≠ some '\n') :
    (p.behind cs ahead).line = p.line + Text.lineBreaks cs := by
  rw [← behind_withLF p h, line_behind_of_not_cr p (Text.not_cr_mem_withLF cs), Text.lineBreaks]

/-- What comes next makes no difference behind a character that is no CR. -/
theorem behind_of_getLast? (p : Place) {cs : List Char} (h : cs.getLast? ≠ some '\r')
    (ahead : List Char) : p.behind cs ahead = p.behind cs [] := by
  induction cs generalizing p with
  | nil => rfl
  | cons c cs ih =>
    show (p.step c (cs ++ ahead)).behind cs ahead = (p.step c (cs ++ [])).behind cs []
    cases cs with
    | nil =>
      have hc : c ≠ '\r' := by simpa using h
      rw [step_of_ne_cr p hc, step_of_ne_cr p hc]
      rfl
    | cons d cs =>
      have hlast : (d :: cs).getLast? ≠ some '\r' := by simpa using h
      rw [ih _ hlast]
      rfl

end Place

theorem Text.lineBreaks_of_not_lineEnd {cs : List Char}
    (h : ∀ c ∈ cs, CharClass.isLineEnd c = false) : lineBreaks cs = 0 := by
  have hcount : (Place.behind ⟨1, 1⟩ cs []).line = 1 + lineBreaks cs :=
    Place.line_behind ⟨1, 1⟩ cs (by simp)
  have hstay : (Place.behind ⟨1, 1⟩ cs []).line = 1 := by
    rw [Place.behind_of_not_lineEnd _ h]
  omega

theorem lineOf_encode (front back : List Char) :
    lineOf (.ofList (front ++ back)) (Text.encode front).length =
      (Cursor.between front back).place.line := rfl

/-- Over a piece of a text the line goes up as it does for the characters of the piece. -/
theorem lineOf_append (front mid back : List Char) :
    lineOf (.ofList (front ++ (mid ++ back))) (Text.encode (front ++ mid)).length =
      ((Cursor.between front (mid ++ back)).place.behind mid back).line := by
  rw [← List.append_assoc, lineOf_encode, Cursor.place_between, Place.behind_append,
    ← Cursor.place_between]

/-! ## §2 Tokens -/

/-- The text of a token ends in its closing quote, or has no line end at all. -/
theorem Spelling.getLast?_ne_cr {k : Kind} {text : List Char} (h : Spelling k text) :
    text.getLast? ≠ some '\r' := by
  by_cases hk : k = .quote
  · subst hk
    obtain ⟨body, -, rfl⟩ := h.exists_body
    rw [← List.cons_append, List.getLast?_concat]
    decide
  · intro hlast
    exact absurd (h.not_lineEnd hk '\r' (List.mem_of_getLast? hlast)) (by decide)

namespace Scanner

section
variable {k : Kind} {text : List Char} (front rest : List Char)

/-- From the start of a token to its end the line goes up with the line breaks of its text. -/
theorem lineOf_stop (htext : Spelling k text) :
    let source := String.ofList (front ++ (text ++ rest))
    let t := tokenBehind front k text
    lineOf source t.stop = lineOf source t.start + Text.lineBreaks text := by
  intro source t
  have hstart : lineOf source t.start = (Cursor.between front (text ++ rest)).place.line := rfl
  rw [stop_tokenBehind, lineOf_append, Place.behind_of_getLast? _ htext.getLast?_ne_cr,
    Place.line_behind _ text (by simp), hstart]

/-- Only a quoted string goes over the end of a line. -/
theorem lineOf_within (htext : Spelling k text) (hk : k ≠ .quote) :
    let source := String.ofList (front ++ (text ++ rest))
    let t := tokenBehind front k text
    ∀ q, t.start ≤ q → q ≤ t.stop → lineOf source q = lineOf source t.start := by
  intro source t q hstart hstop
  have hline : lineOf source t.stop = lineOf source t.start := by
    rw [lineOf_stop front rest htext, Text.lineBreaks_of_not_lineEnd (htext.not_lineEnd hk),
      Nat.add_zero]
  exact Nat.le_antisymm (hline ▸ lineOf_mono source hstop) (lineOf_mono source hstart)

end

end Scanner

/-! ## §3 Runs -/

/-- What stands behind a comment begins with a line break, of one character or of two: the line goes
up over it, and no token begins before its end. -/
theorem Place.exists_lineBreak {rest : List Char}
    (hrest : ∀ c ∈ rest.head?, CharClass.isLineEnd c = true) (hne : rest ≠ []) :
    ∃ gap back, rest = gap ++ back ∧ (∀ c ∈ gap, CharClass.isBlank c = true) ∧
      ∀ p : Place, p.line < (p.behind gap back).line := by
  obtain ⟨c, cs, rfl⟩ := List.exists_cons_of_ne_nil hne
  have hc : c = '\r' ∨ c = '\n' := by simpa [CharClass.isLineEnd] using hrest c rfl
  rcases hc with rfl | rfl
  · by_cases hnext : cs.head? = some '\n'
    · obtain ⟨cs, rfl⟩ := List.head?_eq_some_iff.mp hnext
      exact ⟨['\r', '\n'], cs, rfl, List.all_eq_true.mp rfl, fun p => Nat.lt_succ_self p.line⟩
    · refine ⟨['\r'], cs, rfl, List.all_eq_true.mp rfl, fun p => ?_⟩
      show p.line < (p.step '\r' cs).line
      rw [step_cr_of_head? p hnext]
      exact Nat.lt_succ_self p.line
  · exact ⟨['\n'], cs, rfl, List.all_eq_true.mp rfl, fun p => Nat.lt_succ_self p.line⟩

namespace Scanner

/-- Where a run may meet something: at its tokens and at its error. -/
def Run.Meets (r : Run) (offset : Nat) : Prop :=
  (∃ t ∈ r.tokens, t.start = offset) ∨ ∃ e, r.failure = some e ∧ e.offset = offset

/-- A scanner meets nothing of what it has passed. -/
theorem length_passed_le_of_meets {passed ahead : List Char} {mark : Cursor} {offset : Nat}
    (h : (scanning passed ahead mark).run.Meets offset) :
    (Text.encode passed).length ≤ offset := by
  rcases h with ⟨t, ht, rfl⟩ | ⟨e, he, rfl⟩
  · exact length_passed_le_start passed ahead mark t ht
  · have hle := (tiles_scanning passed ahead mark).2.1.le
    rwa [Run.stop, he] at hle

/-- Whatever a scanner meets behind a comment is on a later line. -/
theorem lineOf_lt_of_meets {front rest : List Char} {mark : Cursor} {offset : Nat}
    (hrest : ∀ c ∈ rest.head?, Kind.comment.goesOn c = false)
    (h : (scanning front rest mark).run.Meets offset) :
    let source := String.ofList (front ++ rest)
    lineOf source (Text.encode front).length < lineOf source offset := by
  intro source
  by_cases hne : rest = []
  · subst hne
    have hend := run_blank (by simp : ∀ c ∈ ([] : List Char), CharClass.isBlank c = true) front mark
    rw [hend] at h
    simp [Run.Meets] at h
  · obtain ⟨gap, back, rfl, hgap, hline⟩ :=
      Place.exists_lineBreak (Kind.isLineEnd_of_comment hrest) hne
    rw [run_blank_append hgap front mark back mark] at h
    calc lineOf source (Text.encode front).length
        < lineOf source (Text.encode (front ++ gap)).length := by
          rw [lineOf_append front gap back]
          exact hline (Cursor.between front (gap ++ back)).place
      _ ≤ lineOf source offset := lineOf_mono source (length_passed_le_of_meets h)

end Scanner

/-- The lines of a token: a single one, or for a quoted string one more for each line break. -/
structure Token.OnLines (source : String) (t : Token) : Prop where
  within : t.kind ≠ .quote →
    ∀ q, t.start ≤ q → q ≤ t.stop → lineOf source q = lineOf source t.start
  quote : t.kind = .quote →
    lineOf source t.stop = lineOf source t.start + Text.lineBreaks t.text.toList

namespace Scanner

/-- A run over tokens that are on their lines, with nothing behind a comment on its line. -/
structure Run.OnLines (source : String) (r : Run) : Prop where
  tokens : ∀ t ∈ r.tokens, t.OnLines source
  next : r.tokens.Pairwise fun t u =>
    t.kind = .comment → lineOf source t.start < lineOf source u.start
  failure : ∀ t ∈ r.tokens, t.kind = .comment →
    ∀ e, r.failure = some e → lineOf source t.start < lineOf source e.offset

theorem Run.onLines_of_nil {source : String} {r : Run} (h : r.tokens = []) :
    r.OnLines source := by
  constructor <;> simp [h]

theorem Run.OnLines.cons {source : String} {r : Run} (h : r.OnLines source) {t : Token}
    (ht : t.OnLines source) (hlater : t.kind = .comment →
      ∀ offset, r.Meets offset → lineOf source t.start < lineOf source offset) :
    (r.cons t).OnLines source where
  tokens := by
    intro u hu
    rcases List.mem_cons.mp hu with rfl | hu
    · exact ht
    · exact h.tokens u hu
  next := List.pairwise_cons.mpr
    ⟨fun u hu hk => hlater hk u.start (.inl ⟨u, hu, rfl⟩), h.next⟩
  failure := by
    intro u hu hk e he
    rcases List.mem_cons.mp hu with rfl | hu
    · exact hlater hk e.offset (.inr ⟨e, he, rfl⟩)
    · exact h.failure u hu hk e he

theorem onLines_scanning (passed ahead : List Char) :
    ∀ mark : Cursor, (scanning passed ahead mark).run.OnLines (.ofList (passed ++ ahead)) := by
  induction passed, ahead using textInduction with
  | blank passed gap hgap =>
    intro mark
    exact Run.onLines_of_nil (by rw [run_blank hgap])
  | foreign passed gap c rest hgap hc =>
    intro mark
    exact Run.onLines_of_nil (by rw [run_foreign hgap passed mark hc])
  | openQuote passed gap rest hgap hrest =>
    intro mark
    exact Run.onLines_of_nil (by rw [run_openQuote hgap passed mark hrest])
  | token passed gap text rest k hgap htext hrest ih =>
    intro mark
    have hsource : passed ++ gap ++ text ++ rest = passed ++ gap ++ (text ++ rest) := by simp
    have hwhole : passed ++ (gap ++ (text ++ rest)) = passed ++ gap ++ (text ++ rest) := by simp
    have hrun := ih mark
    rw [hsource] at hrun
    rw [run_text hgap passed mark htext hrest mark, hwhole]
    refine hrun.cons ⟨lineOf_within (passed ++ gap) rest htext, fun _ => ?_⟩ fun hk offset h => ?_
    · rw [lineOf_stop (passed ++ gap) rest htext, tokenBehind, String.toList_ofList]
    · obtain rfl : k = .comment := hk
      have hlater := lineOf_lt_of_meets hrest h
      rw [hsource, ← stop_tokenBehind (passed ++ gap) .comment text] at hlater
      exact Nat.lt_of_le_of_lt (lineOf_mono _ (Nat.le_add_right _ _)) hlater

end Scanner

/-- **A comment is the last token of its line.** Every token but a quoted string is on the line it
starts on from its first byte to the one behind its last, and a quoted string goes on for as many
lines as it has line breaks. What comes behind a comment, be it a token or the error, is on a later
line. All of it is told by the line counter, which stays below the word size. -/
theorem tokens_on_lines (source : String) (hsize : source.utf8ByteSize ≤ UInt32.size - 2) :
    let line := fun offset => ((Cursor.ofString source).advanceBy offset).line
    let r := (Scanner.ofString source).run
    (∀ q, line q < UInt32.size) ∧
      (∀ t ∈ r.tokens, t.kind ≠ .quote →
        ∀ q, t.start ≤ q → q ≤ t.stop → line q = line t.start) ∧
      (∀ t ∈ r.tokens, t.kind = .quote →
        line t.stop = line t.start + Text.lineBreaks t.text.toList) ∧
      (r.tokens.Pairwise fun t u => t.kind = .comment → line t.start < line u.start) ∧
      ∀ t ∈ r.tokens, t.kind = .comment →
        ∀ e, r.failure = some e → line t.start < line e.offset := by
  intro line r
  have hrun := Scanner.onLines_scanning [] source.toList (Cursor.ofString source)
  rw [← Scanner.ofString_eq_scanning, List.nil_append, String.ofList_toList] at hrun
  refine ⟨fun q => ?_, fun t ht => (hrun.tokens t ht).within, fun t ht => (hrun.tokens t ht).quote,
    hrun.next, hrun.failure⟩
  exact (Cursor.withinWord_of_reaches hsize (.advanceBy _ q)).line_lt

/-- A comment that ends with CR and LF, a quoted string over three lines, a comment that a lone CR
ends, and an error behind it. -/
theorem tokens_on_lines_to_error :
    let source := "//é\r\n\"a\r\n\rb\"//\r@"
    let line := fun offset => ((Cursor.ofString source).advanceBy offset).line
    let r := (Scanner.ofString source).run
    source.utf8ByteSize ≤ UInt32.size - 2 ∧
      r.tokens.map (fun t => (t.kind, line t.start, line t.stop)) =
        [(.comment, 1, 1), (.quote, 2, 4), (.comment, 4, 4)] ∧
      r.failure = some (.unexpected 16 '@') ∧
      (r.tokens.Pairwise fun t u => t.kind = .comment → line t.start < line u.start) ∧
      ∀ t ∈ r.tokens, t.kind = .comment → line t.start < line 16 := by
  intro source line r
  have hsize : source.utf8ByteSize ≤ UInt32.size - 2 := by decide
  have hfailure : r.failure = some (.unexpected 16 '@') := by decide +kernel
  obtain ⟨-, -, -, hnext, herror⟩ := tokens_on_lines source hsize
  exact ⟨hsize, by decide +kernel, hfailure, hnext, fun t ht hk => herror t ht hk _ hfailure⟩

end Lexeme
