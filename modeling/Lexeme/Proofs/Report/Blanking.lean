/-
Lexeme.Proofs.Report.Blanking — a text with blanks for its comments.

Put blanks in the place of the comments of a text: a scan of what is left gives the
tokens of the text without its comments, and fails as the text does, down to the line
and column of the error (`Blanked.bares_run`). Blanks for a comment may be more than
the characters it had, and so move what stands behind it in its line; but nothing stands
there, since a comment ends with its line. And what a comment hides, a quote for one,
was never looked at.

  §1 Texts  — two texts, one with blanks for the comments of the other.
  §2 Places — line and column behind a comment.
  §3 Runs   — both texts scanned side by side.
-/
import Lexeme.Proofs.Cursor.Prefix
import Lexeme.Proofs.Report.Listing

namespace Lexeme

open Scanner

/-! ## §1 Texts -/

/-- A blank for each byte of a text. -/
def blanks (text : List Char) : List Char :=
  List.replicate (Text.encode text).length ' '

theorem encode_blanks (text : List Char) :
    Text.encode (blanks text) = List.replicate (Text.encode text).length 0x20 := by
  unfold blanks
  generalize (Text.encode text).length = n
  induction n with
  | zero => rfl
  | succ n ih =>
    rw [List.replicate_succ, List.replicate_succ, Text.encode_cons, ih]
    rfl

theorem isBlank_of_mem_blanks {text : List Char} :
    ∀ c ∈ blanks text, CharClass.isBlank c = true := by
  intro c hc
  obtain rfl := List.eq_of_mem_replicate hc
  decide

theorem not_lineEnd_of_mem_blanks {text : List Char} :
    ∀ c ∈ blanks text, CharClass.isLineEnd c = false := by
  intro c hc
  obtain rfl := List.eq_of_mem_replicate hc
  decide

theorem head?_blanks_append {text : List Char} (h : text ≠ []) (ahead : List Char) :
    (blanks text ++ ahead).head? = some ' ' := by
  obtain ⟨c, cs, rfl⟩ := List.exists_cons_of_ne_nil h
  obtain ⟨b, bs, henc, _⟩ := Text.utf8EncodeChar_shape c
  simp [blanks, Text.encode_cons, henc, List.replicate_succ]

/-- A text, and the same text with blanks for its comments. Behind the first error nothing is
changed. -/
inductive Blanked : List Char → List Char → Prop
  | blank {gap : List Char} (hgap : ∀ c ∈ gap, CharClass.isBlank c = true) : Blanked gap gap
  | foreign {gap : List Char} {c : Char} {rest : List Char}
      (hgap : ∀ c ∈ gap, CharClass.isBlank c = true) (hc : CharClass.isForeign c = true) :
      Blanked (gap ++ c :: rest) (gap ++ c :: rest)
  | openQuote {gap rest : List Char} (hgap : ∀ c ∈ gap, CharClass.isBlank c = true)
      (hrest : '"' ∉ rest) : Blanked (gap ++ '"' :: rest) (gap ++ '"' :: rest)
  | code {gap text rest rest' : List Char} {k : Kind}
      (hgap : ∀ c ∈ gap, CharClass.isBlank c = true) (htext : Spelling k text)
      (hrest : ∀ c ∈ rest.head?, k.goesOn c = false) (hk : k ≠ .comment)
      (h : Blanked rest rest') : Blanked (gap ++ (text ++ rest)) (gap ++ (text ++ rest'))
  | comment {gap text rest rest' : List Char} (hgap : ∀ c ∈ gap, CharClass.isBlank c = true)
      (htext : Spelling .comment text)
      (hrest : ∀ c ∈ rest.head?, Kind.comment.goesOn c = false) (h : Blanked rest rest') :
      Blanked (gap ++ (text ++ rest)) (gap ++ (blanks text ++ rest'))

/-- The texts begin alike, or the second begins with a blank. -/
theorem Blanked.head?_cases {ahead ahead' : List Char} (h : Blanked ahead ahead') :
    ahead'.head? = ahead.head? ∨ ahead'.head? = some ' ' := by
  cases h with
  | blank | foreign | openQuote => exact .inl rfl
  | @code gap text rest rest' k hgap htext =>
    obtain ⟨c, cs, rfl⟩ := List.exists_cons_of_ne_nil htext.ne_nil
    refine .inl ?_
    cases gap <;> rfl
  | @comment gap text rest rest' hgap htext =>
    cases gap with
    | nil => exact .inr (head?_blanks_append htext.ne_nil rest')
    | cons => exact .inl rfl

/-- So what ends a token in the first ends it in the second. -/
theorem Blanked.goesOn {k : Kind} (hk : k ≠ .comment) {rest rest' : List Char}
    (h : Blanked rest rest') (hrest : ∀ c ∈ rest.head?, k.goesOn c = false) :
    ∀ c ∈ rest'.head?, k.goesOn c = false := by
  intro c hc
  rcases h.head?_cases with hhead | hhead
  · exact hrest c (hhead ▸ hc)
  · obtain rfl : ' ' = c := by simpa [hhead] using hc
    exact Kind.goesOn_blank (by decide) (fun heq => absurd heq hk)

/-! ## §2 Places -/

/-- Two scanners of which one has passed as many bytes as the other, and that are at the same place
wherever they next meet something that is not blank. -/
structure Abreast (passed passed' ahead : List Char) : Prop where
  length : (Text.encode passed').length = (Text.encode passed).length
  place : ∀ gap c rest, ahead = gap ++ c :: rest → (∀ d ∈ gap, CharClass.isBlank d = true) →
    CharClass.isBlank c = false →
      Place.behind ⟨1, 1⟩ (passed' ++ gap) [] = Place.behind ⟨1, 1⟩ (passed ++ gap) []

namespace Abreast

theorem refl (passed ahead : List Char) : Abreast passed passed ahead where
  length := rfl
  place _ _ _ _ _ _ := rfl

variable {passed passed' gap text rest : List Char} {k : Kind}

/-- In front of a token, behind blanks. -/
theorem place_text (h : Abreast passed passed' (gap ++ (text ++ rest)))
    (hgap : ∀ c ∈ gap, CharClass.isBlank c = true) (htext : Spelling k text) :
    Place.behind ⟨1, 1⟩ (passed' ++ gap) [] = Place.behind ⟨1, 1⟩ (passed ++ gap) [] := by
  obtain ⟨c, cs, rfl⟩ := List.exists_cons_of_ne_nil htext.ne_nil
  exact h.place gap c (cs ++ rest) rfl hgap htext.head_not_blank

/-- Behind a token that both have read. -/
theorem code (h : Abreast passed passed' (gap ++ (text ++ rest)))
    (hgap : ∀ c ∈ gap, CharClass.isBlank c = true) (htext : Spelling k text) :
    Abreast (passed ++ gap ++ text) (passed' ++ gap ++ text) rest where
  length := by simp [h.length]
  place gap' _ _ _ _ _ := by
    have hhead := htext.head?_ne_lineFeed (gap' ++ [])
    rw [List.append_assoc _ text, List.append_assoc _ text, Place.behind_append,
      Place.behind_append _ (passed ++ gap), List.append_assoc text,
      Place.behind_of_head? _ _ hhead, Place.behind_of_head? _ _ hhead, h.place_text hgap htext]

/-- Behind a comment, and behind blanks where the comment was: both come to the end of the line. -/
theorem comment (h : Abreast passed passed' (gap ++ (text ++ rest)))
    (hgap : ∀ c ∈ gap, CharClass.isBlank c = true) (htext : Spelling .comment text)
    (hrest : ∀ c ∈ rest.head?, Kind.comment.goesOn c = false) :
    Abreast (passed ++ gap ++ text) (passed' ++ gap ++ blanks text) rest where
  length := by simp [h.length, encode_blanks]
  place gap' c _ hahead _ hc := by
    have hend := Kind.isLineEnd_of_comment hrest
    cases gap' with
    | nil => simp [CharClass.isBlank_of_lineEnd (hend c (by simp [hahead]))] at hc
    | cons e gap' =>
      have hblanks : (blanks text ++ (e :: gap' ++ [])).head? ≠ some '\n' := by
        rw [head?_blanks_append htext.ne_nil]
        decide
      rw [Place.behind_append, Place.behind_append _ (passed ++ gap ++ text),
        Place.behind_append _ (passed' ++ gap), Place.behind_append _ (passed ++ gap)]
      refine Place.behind_cons_lineEnd ?_ (hend e (by simp [hahead])) gap' (by simp)
      rw [Place.behind_of_not_lineEnd _ (htext.not_lineEnd (by decide)),
        Place.behind_of_not_lineEnd _ not_lineEnd_of_mem_blanks,
        Place.behind_of_head? _ _ hblanks, Place.behind_of_head? _ _ (htext.head?_ne_lineFeed _),
        h.place_text hgap htext]

end Abreast

/-! ## §3 Runs -/

/-- A run that finds what is left of another without its comments, and fails like it, at the same
line and column. -/
structure Scanner.Run.Bares (r r' : Run) : Prop where
  tokens : r'.tokens = r.listed false
  failure : r'.failure = r.failure
  place : ∀ e, r.failure = some e → r'.after.cursor.place = r.after.cursor.place

namespace Blanked

variable {passed passed' : List Char}

/-- Where both fail, they fail alike. -/
theorem bares_of_failure {gap rest : List Char} {c : Char}
    (h : Abreast passed passed' (gap ++ c :: rest))
    (hgap : ∀ d ∈ gap, CharClass.isBlank d = true) (hc : CharClass.isBlank c = false)
    (e : Nat → ScanError) :
    let stop := Cursor.between (passed ++ gap) (c :: rest)
    let stop' := Cursor.between (passed' ++ gap) (c :: rest)
    let failed := e (Text.encode (passed ++ gap)).length
    let failed' := e (Text.encode (passed' ++ gap)).length
    Run.Bares ⟨[], some failed, ⟨stop, stop, some failed⟩⟩
      ⟨[], some failed', ⟨stop', stop', some failed'⟩⟩ where
  tokens := rfl
  failure := by simp [h.length]
  place e' _ := by
    have hhead : (c :: rest).head? ≠ some '\n' := by
      intro heq
      obtain rfl : c = '\n' := by simpa using heq
      exact absurd hc (by decide)
    show (Cursor.between (passed' ++ gap) (c :: rest)).place =
      (Cursor.between (passed ++ gap) (c :: rest)).place
    rw [Cursor.place_between, Cursor.place_between, Place.behind_of_head? _ _ hhead,
      Place.behind_of_head? _ _ hhead, h.place gap c rest rfl hgap hc]

/-- Blanks for its comments are all that a text needs to be scanned as if it had none. -/
theorem bares_run {ahead ahead' : List Char} (h : Blanked ahead ahead') :
    ∀ (passed passed' : List Char) (mark mark' : Cursor), Abreast passed passed' ahead →
      (scanning passed ahead mark).run.Bares (scanning passed' ahead' mark').run := by
  induction h with
  | blank hgap =>
    intro passed passed' mark mark' habreast
    rw [run_blank hgap, run_blank hgap]
    exact ⟨rfl, rfl, by simp⟩
  | foreign hgap hc =>
    intro passed passed' mark mark' habreast
    rw [run_foreign hgap passed mark hc, run_foreign hgap passed' mark' hc]
    exact bares_of_failure habreast hgap (CharClass.not_blank_of_foreign hc) (.unexpected · _)
  | openQuote hgap hrest =>
    intro passed passed' mark mark' habreast
    rw [run_openQuote hgap passed mark hrest, run_openQuote hgap passed' mark' hrest]
    exact bares_of_failure habreast hgap (by decide) .openQuote
  | @code gap text rest rest' k hgap htext hrest hk h ih =>
    intro passed passed' mark mark' habreast
    have hlater := ih _ _ mark mark' (habreast.code hgap htext)
    rw [run_text hgap passed mark htext hrest mark,
      run_text hgap passed' mark' htext (h.goesOn hk hrest) mark']
    refine ⟨?_, hlater.failure, hlater.place⟩
    rw [Run.listed_cons_of_shown _ (fun heq => hk heq.1), ← hlater.tokens]
    simp [Run.cons, tokenBehind, habreast.length]
  | @comment gap text rest rest' hgap htext hrest h ih =>
    intro passed passed' mark mark' habreast
    have hlater := ih _ _ mark mark' (habreast.comment hgap htext hrest)
    have hblank := blank_append hgap (@isBlank_of_mem_blanks text)
    rw [run_text hgap passed mark htext hrest mark, ← List.append_assoc gap,
      run_blank_append hblank passed' mark' rest' mark', ← List.append_assoc]
    refine ⟨?_, hlater.failure, hlater.place⟩
    rw [Run.listed_cons_of_hidden _ ⟨rfl, rfl⟩]
    exact hlater.tokens

end Blanked

end Lexeme
