/-
Lexeme.Proofs.Report.Diagnostic — a diagnostic points at the character that is to blame.

Line and column of a diagnostic are those of the failed scanner, wherever that has
come to a stop. It stops right in front of the character its error is about, and
has passed everything before it and nothing more (`stop_of_failure`); so the
place can be found again in the text from the offset alone, and is the line and
column that an editor shows there.

  §1 Blame  — the character of an error, and where the scan stops.
  §2 Places — the diagnostics of both reports.
-/
import Lexeme.Proofs.Cursor.Prefix
import Lexeme.Proofs.Report.Listing
import Lexeme.Proofs.Scan.Session

namespace Lexeme

open Scanner

/-! ## §1 Blame -/

/-- The character that an error is about, between what is before it and what is behind it. -/
inductive ScanError.Blames : ScanError → List Char → Char → List Char → Prop
  | unexpected (front back : List Char) {c : Char} (hc : CharClass.isForeign c = true) :
    Blames (.unexpected (Text.encode front).length c) front c back
  | openQuote (front : List Char) {back : List Char} (hback : '"' ∉ back) :
    Blames (.openQuote (Text.encode front).length) front '"' back

namespace ScanError.Blames

variable {e : ScanError} {front back : List Char} {c : Char}

theorem offset_eq (h : e.Blames front c back) : e.offset = (Text.encode front).length := by
  cases h <;> rfl

/-- No line end is ever to blame. -/
theorem ne_lineFeed (h : e.Blames front c back) : c ≠ '\n' := by
  cases h with
  | unexpected _ _ hc =>
    rintro rfl
    exact absurd (CharClass.not_blank_of_foreign hc) (by decide)
  | openQuote => decide

end ScanError.Blames

namespace Scanner

/-- Where a run fails, the scanner has stopped in front of the character to blame. -/
theorem stop_of_failure (passed ahead : List Char) :
    ∀ (mark : Cursor) (e : ScanError), (scanning passed ahead mark).run.failure = some e →
      ∃ front c back, passed ++ ahead = front ++ c :: back ∧ e.Blames front c back ∧
        (scanning passed ahead mark).run.after.failure = some e ∧
        (scanning passed ahead mark).run.after.cursor = Cursor.between front (c :: back) := by
  induction passed, ahead using textInduction with
  | blank passed gap hgap =>
    intro mark e he
    simp [run_blank hgap] at he
  | foreign passed gap c rest hgap hc =>
    intro mark e he
    rw [run_foreign hgap passed mark hc] at he ⊢
    obtain rfl := Option.some.inj he
    exact ⟨passed ++ gap, c, rest, by simp, .unexpected _ _ hc, rfl, rfl⟩
  | openQuote passed gap rest hgap hrest =>
    intro mark e he
    rw [run_openQuote hgap passed mark hrest] at he ⊢
    obtain rfl := Option.some.inj he
    exact ⟨passed ++ gap, '"', rest, by simp, .openQuote _ hrest, rfl, rfl⟩
  | token passed gap text rest k hgap htext hrest ih =>
    intro mark e he
    have hwhole : passed ++ gap ++ text ++ rest = passed ++ (gap ++ (text ++ rest)) := by simp
    rw [run_text hgap passed mark htext hrest mark] at he ⊢
    rw [← hwhole]
    exact ih mark e he

end Scanner

/-! ## §2 Places -/

/-- A diagnostic that is about a character of a text: it has the offset of the character, its error
is about no other, and line and column are told by what is before it. -/
structure Diagnostic.PointsAt (source : String) (d : Diagnostic) (front : List Char) (c : Char)
    (back : List Char) : Prop where
  source_eq : source.toList = front ++ c :: back
  offset_eq : d.cause.offset = (String.ofList front).utf8ByteSize
  offset_lt : d.cause.offset < source.utf8ByteSize
  isBoundary : (Cursor.ofString source).isBoundary d.cause.offset = true
  cause_eq : d.cause = .unexpected d.cause.offset c ∨
    d.cause = .openQuote d.cause.offset ∧ c = '"' ∧ '"' ∉ back
  line_eq : d.line = 1 + Text.lineBreaks front
  column_eq : d.column = 1 + (Text.lastLine front).length

theorem Scanner.Run.failure_of_tally {r : Run} {name : String} {d : Diagnostic}
    (h : r.tally name = .error d) :
    r.failure = some d.cause ∧ d = .ofScanner name r.after d.cause := by
  unfold Run.tally at h
  cases hr : r.failure with
  | none => simp [hr] at h
  | some e =>
    obtain rfl : Diagnostic.ofScanner name r.after e = d := by simpa [hr] using h
    exact ⟨rfl, rfl⟩

/-- A listing fails as counting does. -/
theorem Scanner.Run.tally_of_listing {r : Run} {name : String} {comments : Bool} {d : Diagnostic}
    (h : r.listing name comments = .error d) : r.tally name = .error d := by
  unfold Run.listing at h
  unfold Run.tally
  cases hr : r.failure <;> simp_all

/-- The diagnostic of a scanner that has stopped in front of the character to blame. -/
theorem Diagnostic.pointsAt_of_blames {source name : String} {s : Scanner} {e : ScanError}
    {front back : List Char} {c : Char} (hsource : source.toList = front ++ c :: back)
    (he : e.Blames front c back) (hs : s.cursor = Cursor.between front (c :: back)) :
    (Diagnostic.ofScanner name s e).PointsAt source front c back := by
  have hoffset : e.offset = (Text.encode front).length := he.offset_eq
  have hlist : source = String.ofList (front ++ c :: back) := by
    rw [← hsource, String.ofList_toList]
  have hhead : (c :: back).head? ≠ some '\n' := by simpa using he.ne_lineFeed
  have hplace := Cursor.place_between_eq front hhead
  rw [← hs] at hplace
  obtain ⟨hline, hcolumn⟩ := Place.mk.inj hplace
  refine ⟨hsource, ?_, ?_, ?_, ?_, hline, hcolumn⟩
  · rw [Text.utf8ByteSize_ofList]
    exact hoffset
  · show e.offset < source.utf8ByteSize
    have hpos := c.utf8Size_pos
    simp [hoffset, hlist]
    omega
  · show (Cursor.ofString source).isBoundary e.offset = true
    rw [hoffset, hlist]
    exact Cursor.isBoundary_between front (c :: back)
  · cases he with
    | unexpected => exact .inl rfl
    | openQuote _ hback => exact .inr ⟨rfl, rfl, hback⟩

/-- **A diagnostic points at the character to blame.** Whichever report it comes from, it has the
name that was given and the error of the scan, whose scanner has stopped at the offset of the
error. At that offset stands the character that the error is about, the offending one or a quote
that is never closed; and line and column are those of the character, counted from the text before
it. Both fit into 32 bits if the text is not too long for that. -/
theorem diagnostic_points_at (name source : String) (d : Diagnostic)
    (h : (Tally.count name source).result = .error d ∨
      ∃ format comments, (Listing.write name source format comments).result = .error d) :
    let s := (ofString source).run.after
    d.name = name ∧ s.failure = some d.cause ∧ s.cursor.position = d.cause.offset ∧
      (∃ front c back, d.PointsAt source front c back) ∧
      (source.utf8ByteSize ≤ UInt32.size - 2 → d.line < UInt32.size ∧ d.column < UInt32.size) := by
  intro s
  have htally : (ofString source).run.tally name = .error d := by
    rcases h with h | ⟨format, comments, h⟩
    · rwa [Tally.result_count] at h
    · rw [Listing.result_write] at h
      exact Run.tally_of_listing h
  obtain ⟨hfailure, hd⟩ := Run.failure_of_tally htally
  rw [ofString_eq_scanning] at hfailure
  obtain ⟨front, c, back, hsource, hblames, hafter, hcursor⟩ := stop_of_failure [] _ _ _ hfailure
  rw [← ofString_eq_scanning] at hafter hcursor
  have hpoints : (Diagnostic.ofScanner name (ofString source).run.after d.cause).PointsAt source
      front c back := Diagnostic.pointsAt_of_blames hsource hblames hcursor
  refine ⟨by rw [hd]; rfl, hafter, ?_, ⟨front, c, back, hd ▸ hpoints⟩, fun hsize => ?_⟩
  · show (ofString source).run.after.cursor.position = _
    rw [hcursor, Cursor.position_between, hblames.offset_eq]
  · have hreaches : (Cursor.ofString source).Reaches (Cursor.between front (c :: back)) := by
      rw [Cursor.between, ← hsource, List.nil_append, String.ofList_toList]
      exact .advanceBy _ _
    have hword := Cursor.withinWord_of_reaches hsize (hcursor ▸ hreaches)
    rw [hd]
    exact ⟨hword.line_lt, hword.column_lt⟩

/-- A foreign character behind a comment that CR ends and a quoted string over two lines, and a
quote that is left open behind a character of two bytes. -/
theorem diagnostic_points_at_both :
    let foreign := "// é\r\"b\r\n\"\té"
    let opened := "a\r\n\"é\" \"é"
    let d : Diagnostic := ⟨"x", 3, 3, .unexpected 12 'é'⟩
    let d' : Diagnostic := ⟨"y", 2, 5, .openQuote 8⟩
    (Tally.count "x" foreign).result = .error d ∧
      (Listing.write "y" opened .json false).result = .error d' ∧
      (∃ front c back, d.PointsAt foreign front c back) ∧
      (∃ front c back, d'.PointsAt opened front c back) ∧
      d.line < UInt32.size ∧ d'.column < UInt32.size := by
  intro foreign opened d d'
  have hcount : (Tally.count "x" foreign).result = .error d := by decide +kernel
  have hlist : (Listing.write "y" opened .json false).result = .error d' := by
    decide +kernel
  obtain ⟨-, -, -, hpoints, hword⟩ := diagnostic_points_at "x" foreign d (.inl hcount)
  obtain ⟨-, -, -, hpoints', hword'⟩ := diagnostic_points_at "y" opened d' (.inr ⟨_, _, hlist⟩)
  exact ⟨hcount, hlist, hpoints, hpoints', (hword (by decide)).1, (hword' (by decide)).2⟩

end Lexeme
