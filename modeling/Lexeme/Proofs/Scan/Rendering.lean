/-
Lexeme.Proofs.Scan.Rendering — a text written from tokens splits into them.

Any tokens can be written down with blanks between them and read back, kinds,
texts and offsets alike. A gap may be left out wherever the next token could
not be taken for more of the one before it: `Kind.merges` lists the five pairs
where it could. A comment does not end with its own text, so behind one the
gap has to begin with a line end. That these are all the cases is settled in
`goesOn_spelling`, once for all pairs of kinds.

  §1 Rendering — tokens with gaps, and the text they make.
  §2 Neighbors — what may stand behind a token.
  §3 Scanning  — the text is read back.
-/
import Lexeme.Proofs.Scan.Run

namespace Lexeme

/-! ## §1 Rendering -/

/-- A token to be written, and the blanks to be written before it. -/
structure Piece where
  gap : String
  kind : Kind
  text : String

/-- Kinds of token that would not be told apart without a gap between them. -/
def Kind.merges : Kind → Kind → Bool
  | identifier, identifier | identifier, number | number, number => true
  | divide, divide | divide, comment => true
  | _, _ => false

namespace Piece

/-- The pieces one behind the other, and blanks at the end. -/
def render : List Piece → String → String
  | [], last => last
  | p :: ps, last => p.gap ++ p.text ++ render ps last

/-- The tokens written, the first piece at a byte offset. -/
def layout : Nat → List Piece → List Token
  | _, [] => []
  | offset, p :: ps =>
    let start := offset + p.gap.utf8ByteSize
    ⟨p.kind, p.text, start⟩ :: layout (start + p.text.utf8ByteSize) ps

/-- Every text is spelt as its kind asks, and gaps are blank; they begin with a line end behind a
comment (the last one may be empty as well) and are not empty between tokens that would merge. The
pieces stand behind a token of a kind, or at the beginning. -/
def Spaced : Option Kind → List Piece → String → Prop
  | before, [], last =>
    (∀ c ∈ last.toList, CharClass.isBlank c = true) ∧
    (before = some .comment → ∀ c ∈ last.toList.head?, CharClass.isLineEnd c = true)
  | before, p :: ps, last =>
    (∀ c ∈ p.gap.toList, CharClass.isBlank c = true) ∧
    Spelling p.kind p.text.toList ∧
    (before = some .comment → ∃ c ∈ p.gap.toList.head?, CharClass.isLineEnd c = true) ∧
    (∀ k ∈ before, k.merges p.kind = true → p.gap.toList ≠ []) ∧
    Spaced (some p.kind) ps last

end Piece

/-! ## §2 Neighbors -/

namespace Kind

/-- A token goes on with the first character of the next one only where the two would merge. -/
theorem goesOn_spelling {k next : Kind} {c : Char} {cs : List Char}
    (hnext : Spelling next (c :: cs)) (hk : k ≠ .comment) (hmerge : k.merges next = false) :
    k.goesOn c = false := by
  cases hnext with
  | operator hop =>
    have hall : ∀ o ∈ operators, CharClass.isWordPart o.1 = false ∧ o.1.isDigit = false ∧
        (o.1 == '/') = false := by decide
    obtain ⟨hword, hdigit, hslash⟩ := hall (c, next) hop
    cases k <;> first | assumption | rfl | contradiction
  | divide => cases k <;> first | decide | contradiction
  | identifier hc =>
    have hdigit : c.isDigit = false :=
      Bool.eq_false_iff.mpr fun hdigit => by simp [(CharClass.isDigit_alone hdigit).2.2.2] at hc
    have hslash : (c == '/') = false := by simpa using (CharClass.isWordStart_alone hc).2.1
    cases k <;> first | assumption | rfl | contradiction
  | number hc =>
    have hslash : (c == '/') = false := by simpa using (CharClass.isDigit_alone hc).2.1
    cases k <;> first | assumption | rfl | contradiction
  | quote => cases k <;> first | decide | contradiction
  | comment => cases k <;> first | decide | contradiction

end Kind

namespace Piece

theorem goesOn_render {k : Kind} {ps : List Piece} {last : String}
    (h : Spaced (some k) ps last) : ∀ c ∈ (render ps last).toList.head?, k.goesOn c = false := by
  intro c hc
  cases ps with
  | nil =>
    obtain ⟨hblank, hend⟩ := h
    have hmem : c ∈ last.toList := List.mem_of_mem_head? hc
    exact Kind.goesOn_blank (hblank c hmem) fun hk => hend (congrArg some hk) c hc
  | cons p ps =>
    obtain ⟨hblank, hspell, hend, hmerge, -⟩ := h
    rw [render, String.toList_append, String.toList_append, List.append_assoc] at hc
    cases hgap : p.gap.toList with
    | nil =>
      obtain ⟨d, ds, htext⟩ := List.exists_cons_of_ne_nil hspell.ne_nil
      obtain rfl : d = c := by simpa [hgap, htext] using hc
      rw [htext] at hspell
      refine Kind.goesOn_spelling hspell ?_ ?_
      · intro hk
        obtain ⟨e, he, _⟩ := hend (congrArg some hk)
        simp [hgap] at he
      · exact Bool.eq_false_iff.mpr fun hm => hmerge k rfl hm hgap
    | cons d ds =>
      obtain rfl : d = c := by simpa [hgap] using hc
      refine Kind.goesOn_blank (hblank d (by simp [hgap])) fun hk => ?_
      obtain ⟨e, he, hline⟩ := hend (congrArg some hk)
      obtain rfl : d = e := by simpa [hgap] using he
      exact hline

/-! ## §3 Scanning -/

/-- How much of what is written behind a token of a kind has been passed with it. -/
def passedWith (before : Option Kind) : Nat :=
  before.elim 0 Kind.trailing

theorem passedWith_le {before : Option Kind} {p : Piece} {ps : List Piece} {last : String}
    (h : Spaced before (p :: ps) last) : passedWith before ≤ p.gap.toList.length := by
  obtain ⟨-, -, hend, -, -⟩ := h
  cases before with
  | none => exact Nat.zero_le _
  | some k =>
    cases k with
    | comment =>
      obtain ⟨c, hc, -⟩ := hend rfl
      exact List.length_pos_iff.mpr (List.ne_nil_of_mem (List.mem_of_mem_head? hc))
    | _ => exact Nat.zero_le _

open Scanner in
/-- Pieces are read back behind anything that has been passed, and from where the token before them
has left the scan. -/
theorem run_render (ps : List Piece) (last : String) :
    ∀ (before : Option Kind) (passed : List Char) (mark : Cursor), Spaced before ps last →
      let chars := (render ps last).toList
      (scanning (passed ++ chars.take (passedWith before)) (chars.drop (passedWith before))
        mark).run.result = .ok (layout (Text.encode passed).length ps) := by
  induction ps with
  | nil =>
    intro before passed mark h chars
    have hblank : ∀ c ∈ chars.drop (passedWith before), CharClass.isBlank c = true :=
      fun c hc => h.1 c (List.mem_of_mem_drop hc)
    rw [run_blank hblank]
    rfl
  | cons p ps ih =>
    intro before passed mark h chars
    have hlen := passedWith_le h
    obtain ⟨hblank, hspell, -, -, hrest⟩ := h
    have hchars : chars = p.gap.toList ++ (p.text.toList ++ (render ps last).toList) := by
      simp [chars, render]
    have htake : chars.take (passedWith before) = p.gap.toList.take (passedWith before) := by
      rw [hchars, List.take_append_of_le_length hlen]
    have hdrop : chars.drop (passedWith before) = p.gap.toList.drop (passedWith before) ++
        (p.text.toList ++ (render ps last).toList) := by
      rw [hchars, List.drop_append_of_le_length hlen]
    have hgap : ∀ c ∈ p.gap.toList.drop (passedWith before), CharClass.isBlank c = true :=
      fun c hc => hblank c (List.mem_of_mem_drop hc)
    have hbehind : passed ++ p.gap.toList.take (passedWith before) ++
        p.gap.toList.drop (passedWith before) = passed ++ p.gap.toList := by
      rw [List.append_assoc, List.take_append_drop]
    rw [htake, hdrop, run_token hgap _ mark hspell (goesOn_render hrest), hbehind,
      Run.result_cons]
    have hrun := ih (some p.kind) (passed ++ p.gap.toList ++ p.text.toList)
      (Cursor.between (passed ++ p.gap.toList) (p.text.toList ++ (render ps last).toList)) hrest
    have hsize (s : String) : (Text.encode s.toList).length = s.utf8ByteSize := by
      rw [← Text.bytes_eq_encode, Text.length_bytes]
    simp only [Text.encode_append, List.length_append, hsize] at hrun
    show Except.map _ (scanning (_ ++ (render ps last).toList.take (passedWith (some p.kind)))
      ((render ps last).toList.drop (passedWith (some p.kind))) _).run.result = _
    rw [hrun]
    simp [Except.map, layout, tokenBehind, hsize]

/-- **What is written is read back.** Tokens written with gaps that keep them apart are all that
is found, in their order and each where it was put. -/
theorem tokenize_render (ps : List Piece) (last : String) (h : Spaced none ps last) :
    tokenize (render ps last) = .ok (layout 0 ps) := by
  have hrun := run_render ps last none [] (Cursor.ofString (render ps last)) h
  rw [Scanner.tokenize_eq_run, Scanner.ofString_eq_scanning]
  exact hrun

/-- Neighbors with and without a gap, a comment with its line end, and between two operators a quote
that holds what would be a line end and a comment elsewhere. -/
def mixed : List Piece := [
  ⟨"", .identifier, "ab"⟩, ⟨" ", .number, "12"⟩, ⟨"", .identifier, "x"⟩, ⟨"", .divide, "/"⟩,
  ⟨" ", .comment, "//é"⟩, ⟨"\r\n", .equals, "="⟩, ⟨"", .quote, "\"\n//\""⟩,
  ⟨"", .semicolon, ";"⟩]

theorem spaced_mixed : Spaced none mixed "\t" := by
  have blank (gap : String) (h : gap.toList.all CharClass.isBlank = true) :
      ∀ c ∈ gap.toList, CharClass.isBlank c = true := List.all_eq_true.mp h
  have hab : Spelling .identifier ['a', 'b'] :=
    .identifier (by decide) (List.all_eq_true.mp (by decide))
  have h12 : Spelling .number ['1', '2'] := .number (by decide) (List.all_eq_true.mp (by decide))
  have hx : Spelling .identifier ['x'] := .identifier (by decide) (by simp)
  have hcomment : Spelling .comment ('/' :: '/' :: ['é']) :=
    .comment (by simp [CharClass.isLineEnd])
  have hequals : Spelling .equals ['='] := .operator (by decide)
  have hquote : Spelling .quote ('"' :: (['\n', '/', '/'] ++ ['"'])) := .quote (by decide)
  have hsemicolon : Spelling .semicolon [';'] := .operator (by decide)
  refine ⟨blank "" (by decide), hab, by simp, by simp, ?_⟩
  refine ⟨blank " " (by decide), h12, by simp, by decide, ?_⟩
  refine ⟨blank "" (by decide), hx, by simp, by decide, ?_⟩
  refine ⟨blank "" (by decide), .divide, by simp, by decide, ?_⟩
  refine ⟨blank " " (by decide), hcomment, by simp, by decide, ?_⟩
  refine ⟨blank "\r\n" (by decide), hequals, fun _ => ⟨'\r', rfl, rfl⟩, by decide, ?_⟩
  refine ⟨blank "" (by decide), hquote, by simp, by decide, ?_⟩
  refine ⟨blank "" (by decide), hsemicolon, by simp, by decide, ?_⟩
  exact ⟨blank "\t" (by decide), by simp⟩

theorem tokenize_render_mixed :
    Spaced none mixed "\t" ∧
      tokenize "ab 12x/ //é\r\n=\"\n//\";\t" = .ok [
        ⟨.identifier, "ab", 0⟩, ⟨.number, "12", 3⟩, ⟨.identifier, "x", 5⟩, ⟨.divide, "/", 6⟩,
        ⟨.comment, "//é", 8⟩, ⟨.equals, "=", 14⟩, ⟨.quote, "\"\n//\"", 15⟩,
        ⟨.semicolon, ";", 20⟩] := by
  have htext : render mixed "\t" = "ab 12x/ //é\r\n=\"\n//\";\t" := by decide
  have htokens := tokenize_render mixed "\t" spaced_mixed
  rw [htext] at htokens
  exact ⟨spaced_mixed, htokens⟩

end Piece
end Lexeme
