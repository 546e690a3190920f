/-
Lexeme.Proofs.Scan.LineBreaks — the convention for line ends makes no difference.

The same lines can be joined by LF, by CR or by both, and are scanned alike:
the same tokens stand in them, with the line breaks of quoted strings as the
only difference in their texts, and an error is met at the same character, in
the same line and column. Offsets are the same as well, or have one more byte
for each line break before them.

The proof follows the text that is joined by LF front by front, and the other
one beside it. Where a comment ends, the scan of a CRLF passes the CR only, and
its LF is one more blank to the next call; so both are followed from the text of
one token to the text of the next (`run_written`).

  §1 Writing    — fronts of a text, written by another convention.
  §2 Places     — line and column under both.
  §3 Comparison — two scans side by side.
-/
import Lexeme.Proofs.Cursor.Place
import Lexeme.Proofs.Report.Tally
import Lexeme.Proofs.Scan.Offsets
import Lexeme.Proofs.Text.LineBreak

namespace Lexeme

/-! ## §1 Writing -/

namespace LineBreak

variable (b : LineBreak)

theorem written_blank {gap : List Char} (hgap : ∀ c ∈ gap, CharClass.isBlank c = true) :
    ∀ c ∈ b.written gap, CharClass.isBlank c = true := by
  intro c hc
  rcases mem_written b hc with hline | hmem
  · exact CharClass.isBlank_of_lineEnd hline
  · exact hgap c hmem

theorem not_quote_mem_written {cs : List Char} (hcs : '"' ∉ cs) : '"' ∉ b.written cs := by
  intro h
  rcases mem_written b h with hline | hmem
  · exact absurd hline (by decide)
  · exact hcs hmem

/-- Only the text of a quoted string is written otherwise. -/
theorem written_spelling {k : Kind} {text : List Char} (h : Spelling k text) (hk : k ≠ .quote) :
    b.written text = text := by
  refine written_of_not_mem b fun hlf => ?_
  exact absurd (h.not_lineEnd hk '\n' hlf) (by decide)

theorem spelling_written {k : Kind} {text : List Char} (h : Spelling k text) :
    Spelling k (b.written text) := by
  by_cases hk : k = .quote
  · subst hk
    obtain ⟨body, hbody, rfl⟩ := h.exists_body
    rw [written_cons_of_ne b (by decide), written_append, written_cons_of_ne b (by decide)]
    exact .quote (not_quote_mem_written b hbody)
  · rwa [written_spelling b h hk]

/-- Where a token ends, it ends under every convention. -/
theorem goesOn_written {k : Kind} {rest : List Char}
    (hrest : ∀ c ∈ rest.head?, k.goesOn c = false) :
    ∀ c ∈ (b.written rest).head?, k.goesOn c = false := by
  intro c hc
  cases rest with
  | nil => simp at hc
  | cons d rest =>
    have hd : k.goesOn d = false := hrest d rfl
    by_cases hlf : d = '\n'
    · have hline : CharClass.isLineEnd c = true := by
        subst hlf
        rw [written_cons_lf] at hc
        cases b <;> · obtain rfl := Option.some.inj hc; decide
      exact Kind.goesOn_blank (CharClass.isBlank_of_lineEnd hline) fun _ => hline
    · rw [written_cons_of_ne b hlf] at hc
      obtain rfl := Option.some.inj hc
      exact hd

/-! ## §2 Places -/

/-- Line and column are the same under every convention: the CR of a CRLF takes a column, but its LF
begins a line. -/
theorem behind_written {passed : List Char} (hpassed : '\r' ∉ passed) (ahead : List Char)
    (p : Place) : p.behind (b.written passed) (b.written ahead) = p.behind passed ahead := by
  induction passed generalizing p with
  | nil => rfl
  | cons c passed ih =>
    have hrest := ih fun h => hpassed (by simp [h])
    have hcr : c ≠ '\r' := fun h => hpassed (by simp [h])
    by_cases hc : c = '\n'
    · subst hc
      show _ = Place.behind ⟨p.line + 1, 1⟩ passed ahead
      rw [written_cons_lf, ← hrest]
      cases b with
      | lf => rfl
      | cr =>
        have hfree : '\n' ∉ LineBreak.cr.written passed ++ LineBreak.cr.written ahead := by
          rw [← written_append]
          exact not_mem_written_cr _
        show (p.step '\r' (LineBreak.cr.written passed ++ LineBreak.cr.written ahead)).behind
          (LineBreak.cr.written passed) (LineBreak.cr.written ahead) = _
        rw [Place.step_cr_of_head? p fun hhead => hfree (List.mem_of_mem_head? hhead)]
      | crlf => rfl
    · have hline : CharClass.isLineEnd c = false := by simp [CharClass.isLineEnd, hc, hcr]
      rw [written_cons_of_ne b hc, Place.behind, Place.behind,
        Place.step_of_not_lineEnd p hline, Place.step_of_not_lineEnd p hline, hrest]

end LineBreak

/-! ## §3 Comparison -/

/-- A token with every line break in its text rewritten to LF, if it is a quoted string. -/
def Token.unified (t : Token) : Token :=
  if t.kind = .quote then { t with text := .ofList (Text.withLF t.text.toList) } else t

namespace Scanner

open Cursor LineBreak

/-- Runs that find the same, at offsets that belong together, and end at the same place. -/
structure Run.Alike (move : Nat → Nat) (r r' : Run) : Prop where
  tokens : r'.tokens.map Token.unified = r.tokens.map (Token.moved move)
  failure : r'.failure = r.failure.map (ScanError.moved move)
  place : r'.after.cursor.place = r.after.cursor.place

theorem Run.Alike.cons {move : Nat → Nat} {r r' : Run} (h : r.Alike move r') {t t' : Token}
    (ht : t'.unified = t.moved move) : (r.cons t).Alike move (r'.cons t') where
  tokens := by simp [Run.cons, ht, h.tokens]
  failure := h.failure
  place := h.place

variable (b : LineBreak)

theorem unified_tokenBehind {k : Kind} {text : List Char} (htext : Spelling k text)
    (hcr : '\r' ∉ text) (passed ahead : List Char) :
    (tokenBehind (b.written passed) k (b.written text)).unified =
      (tokenBehind passed k text).moved (b.shift (Text.encode (passed ++ ahead))) := by
  rw [Token.moved, tokenBehind, tokenBehind, shift_encode]
  by_cases hk : k = .quote
  · simp [Token.unified, hk, withLF_written b hcr]
  · simp [Token.unified, hk, written_spelling b htext hk]

theorem place_written {passed : List Char} (hcr : '\r' ∉ passed) (ahead : List Char) :
    (between (b.written passed) (b.written ahead)).place = (between passed ahead).place := by
  rw [place_between, place_between, behind_written b hcr]

/-- Where both scans fail, they fail alike if they stand at the same place. -/
theorem alike_of_failure {passed ahead : List Char} (hcr : '\r' ∉ passed) {e e' : ScanError}
    (he : e' = e.moved (b.shift (Text.encode (passed ++ ahead)))) :
    Run.Alike (b.shift (Text.encode (passed ++ ahead)))
      ⟨[], some e, ⟨between passed ahead, between passed ahead, some e⟩⟩
      ⟨[], some e', ⟨between (b.written passed) (b.written ahead),
        between (b.written passed) (b.written ahead), some e'⟩⟩ where
  tokens := rfl
  failure := by rw [he]; rfl
  place := place_written b hcr ahead

/-- A text and the same text written by another convention are scanned alike, from wherever the two
scans have come to in them. -/
theorem run_written (passed ahead : List Char) :
    ∀ mark mark' : Cursor, '\r' ∉ passed ++ ahead →
      (scanning passed ahead mark).run.Alike (b.shift (Text.encode (passed ++ ahead)))
        (scanning (b.written passed) (b.written ahead) mark').run := by
  induction passed, ahead using textInduction with
  | blank passed gap hgap =>
    intro mark mark' hcr
    rw [run_blank hgap, run_blank (written_blank b hgap), ← written_append]
    exact ⟨rfl, rfl, place_written b hcr []⟩
  | foreign passed gap c rest hgap hc =>
    intro mark mark' hcr
    have hline := CharClass.not_lineEnd_of_not_blank (CharClass.not_blank_of_foreign hc)
    have hne : c ≠ '\n' := (CharClass.ne_of_class (by decide) hline).symm
    have hfree : '\r' ∉ passed ++ gap := fun h => hcr (by simp_all)
    rw [written_append, written_cons_of_ne b hne, run_foreign hgap passed mark hc,
      run_foreign (written_blank b hgap) _ mark' hc, ← written_append, ← written_cons_of_ne b hne,
      ← List.append_assoc passed]
    exact alike_of_failure b hfree (by rw [ScanError.moved, shift_encode])
  | openQuote passed gap rest hgap hrest =>
    intro mark mark' hcr
    have hne : '"' ≠ '\n' := by decide
    have hfree : '\r' ∉ passed ++ gap := fun h => hcr (by simp_all)
    rw [written_append, written_cons_of_ne b hne, run_openQuote hgap passed mark hrest,
      run_openQuote (written_blank b hgap) _ mark' (not_quote_mem_written b hrest),
      ← written_append, ← written_cons_of_ne b hne, ← List.append_assoc passed]
    exact alike_of_failure b hfree (by rw [ScanError.moved, shift_encode])
  | token passed gap text rest k hgap htext hrest ih =>
    intro mark mark' hcr
    have hfreeText : '\r' ∉ text := fun h => hcr (by simp [h])
    have hwhole : passed ++ gap ++ text ++ rest = passed ++ (gap ++ (text ++ rest)) := by simp
    have htoken := unified_tokenBehind b htext hfreeText (passed ++ gap) (text ++ rest)
    have hbehind := ih mark mark' (hwhole ▸ hcr)
    rw [List.append_assoc passed] at htoken
    rw [hwhole] at hbehind
    rw [written_append, written_append, run_text hgap passed mark htext hrest mark,
      run_text (written_blank b hgap) _ mark' (spelling_written b htext) (goesOn_written b hrest)
        mark', ← written_append, ← written_append]
    exact hbehind.cons htoken

end Scanner

open Scanner

/-- A diagnostic of the same place whose error is at another offset. -/
def Diagnostic.moved (move : Nat → Nat) (d : Diagnostic) : Diagnostic :=
  { d with cause := d.cause.moved move }

theorem Scanner.Run.Alike.tally {move : Nat → Nat} {r r' : Run} (h : r.Alike move r')
    (name : String) : r'.tally name = (r.tally name).mapError (Diagnostic.moved move) := by
  have hlength : r'.tokens.length = r.tokens.length := by
    simpa using congrArg List.length h.tokens
  obtain ⟨hline, hcolumn⟩ := Place.mk.inj h.place
  unfold Run.tally
  rw [h.failure]
  cases r.failure with
  | none => exact congrArg Except.ok hlength
  | some e =>
    refine congrArg Except.error ?_
    simp [Diagnostic.moved, Diagnostic.ofScanner, hline, hcolumn]

/-- Texts that are scanned alike: the same tokens but for the line breaks in quoted strings, and the
same end, at offsets that belong together, with the same count or the same line and column. -/
structure ScannedAlike (move : Nat → Nat) (source source' : String) : Prop where
  tokens : (ofString source').run.tokens.map Token.unified =
    (ofString source).run.tokens.map (Token.moved move)
  failure : (ofString source').run.failure =
    (ofString source).run.failure.map (ScanError.moved move)
  tally : ∀ name, (Tally.count name source').result =
    (Tally.count name source).result.mapError (Diagnostic.moved move)

theorem scannedAlike_join (b : LineBreak) {lines : List String}
    (h : ∀ line ∈ lines, ∀ c ∈ line.toList, CharClass.isLineEnd c = false) :
    ScannedAlike (b.shift (Text.bytes (LineBreak.lf.join lines))) (LineBreak.lf.join lines)
      (b.join lines) := by
  have hfree {e : Char} (he : CharClass.isLineEnd e = true) : ∀ line ∈ lines, e ∉ line.toList := by
    intro line hline hmem
    simp [h line hline e hmem] at he
  have hcr := LineBreak.not_mem_join_lf (hfree (by decide : CharClass.isLineEnd '\r' = true))
  have hwritten := LineBreak.toList_join b (hfree (by decide : CharClass.isLineEnd '\n' = true))
  have hrun := run_written b [] (LineBreak.lf.join lines).toList
    (Cursor.ofString (LineBreak.lf.join lines)) (Cursor.ofString (b.join lines)) hcr
  rw [List.nil_append, LineBreak.written_nil, ← hwritten, ← ofString_eq_scanning,
    ← ofString_eq_scanning, ← Text.bytes_eq_encode] at hrun
  refine ⟨hrun.tokens, hrun.failure, fun name => ?_⟩
  rw [Tally.result_count, Tally.result_count]
  exact hrun.tally name

/-- **The convention for line ends makes no difference.** Lines that are joined by CR are scanned as
if they were joined by LF. So they are if they are joined by CRLF, with everything one byte farther
on for each line break before it. -/
theorem line_breaks_alike (lines : List String)
    (h : ∀ line ∈ lines, ∀ c ∈ line.toList, CharClass.isLineEnd c = false) :
    let lf := LineBreak.lf.join lines
    ScannedAlike id lf (LineBreak.cr.join lines) ∧
      ScannedAlike (fun offset => offset + ((Text.bytes lf).take offset).count 0x0A) lf
        (LineBreak.crlf.join lines) := by
  intro lf
  have hcr : LineBreak.cr.shift (Text.bytes lf) = id := by
    funext offset
    simp [LineBreak.shift, LineBreak.extra]
  have hcrlf : LineBreak.crlf.shift (Text.bytes lf) =
      fun offset => offset + ((Text.bytes lf).take offset).count 0x0A := by
    funext offset
    simp [LineBreak.shift, LineBreak.extra]
  exact ⟨hcr ▸ scannedAlike_join .cr h, hcrlf ▸ scannedAlike_join .crlf h⟩

/-- A comment with a quote in it, a quoted string over two lines, and an error behind them. -/
theorem line_breaks_alike_to_error :
    let lines := ["a // \"é", "\"b", "c\" é"]
    let lf := "a // \"é\n\"b\nc\" é"
    let crlf := "a // \"é\r\n\"b\r\nc\" é"
    (∀ line ∈ lines, ∀ c ∈ line.toList, CharClass.isLineEnd c = false) ∧
      LineBreak.lf.join lines = lf ∧ LineBreak.crlf.join lines = crlf ∧
      ScannedAlike id lf (LineBreak.cr.join lines) ∧
      (Tally.count "x" lf).result = .error ⟨"x", 3, 4, .unexpected 15 'é'⟩ ∧
      (Tally.count "x" crlf).result = .error ⟨"x", 3, 4, .unexpected 17 'é'⟩ := by
  intro lines lf crlf
  have hlines : ∀ line ∈ lines, ∀ c ∈ line.toList, CharClass.isLineEnd c = false := by
    simp [lines, CharClass.isLineEnd]
  have hlf : LineBreak.lf.join lines = lf := by decide
  have hcrlf : LineBreak.crlf.join lines = crlf := by decide
  have hfailure : (ofString lf).run.failure = some (.unexpected 15 'é') := by decide +kernel
  have hplace : (ofString lf).run.after.cursor.place = ⟨3, 4⟩ := by decide +kernel
  have htally : (Tally.count "x" lf).result = .error ⟨"x", 3, 4, .unexpected 15 'é'⟩ := by
    obtain ⟨hline, hcolumn⟩ := Place.mk.inj hplace
    simp [Tally.result_count, Run.tally, hfailure, Diagnostic.ofScanner, hline, hcolumn]
  have hbreaks : ((Text.bytes lf).take 15).count 0x0A = 2 := by decide +kernel
  obtain ⟨hcr, hboth⟩ := line_breaks_alike lines hlines
  rw [hlf] at hcr hboth
  rw [hcrlf] at hboth
  refine ⟨hlines, hlf, hcrlf, hcr, htally, ?_⟩
  rw [hboth.tally, htally]
  refine congrArg Except.error ?_
  simp [Diagnostic.moved, ScanError.moved, hbreaks]

end Lexeme
