/-
Lexeme.Proofs.Scan.Grammar — which texts are tokens, said without a scanner.

`Spelling` lists the texts of each kind. A token also has to end somewhere,
and where two ends are possible the longer text is meant: `Kind.goesOn` holds
the characters that would make a token of a kind longer, so a token ends only
where none of them follows. With blanks, and the two ways to go wrong, that is
all a text can begin with (`front`), and reading it from front to end is an
induction: as a scanner reads it (`frontInduction`), or text by text of its tokens
(`textInduction`).

  §1 Spelling  — the texts of each kind.
  §2 Longest   — what would make a token longer, in characters and in bytes.
  §3 Fronts    — blanks, and then one of four things.
  §4 Induction — from the front of a text to its end.
-/
import Lexeme.Proofs.Text.CharClass

namespace Lexeme

/-! ## §1 Spelling -/

/-- The texts that are tokens of a kind. -/
inductive Spelling : Kind → List Char → Prop
  | operator {c : Char} {k : Kind} (h : (c, k) ∈ Kind.operators) : Spelling k [c]
  | divide : Spelling .divide ['/']
  | identifier {c : Char} {cs : List Char} (hc : CharClass.isWordStart c = true)
      (hcs : ∀ d ∈ cs, CharClass.isWordPart d = true) : Spelling .identifier (c :: cs)
  | number {c : Char} {cs : List Char} (hc : c.isDigit = true)
      (hcs : ∀ d ∈ cs, d.isDigit = true) : Spelling .number (c :: cs)
  | quote {body : List Char} (h : '"' ∉ body) : Spelling .quote ('"' :: (body ++ ['"']))
  | comment {body : List Char} (h : ∀ d ∈ body, CharClass.isLineEnd d = false) :
      Spelling .comment ('/' :: '/' :: body)

theorem Spelling.ne_nil {k : Kind} {text : List Char} (h : Spelling k text) : text ≠ [] := by
  cases h <;> simp

theorem Spelling.head_not_blank {k : Kind} {c : Char} {cs : List Char} (h : Spelling k (c :: cs)) :
    CharClass.isBlank c = false := by
  cases h with
  | operator hop => exact (CharClass.operator_alone hop).1
  | identifier hc => exact (CharClass.isWordStart_alone hc).1
  | number hc => exact (CharClass.isDigit_alone hc).1
  | _ => decide

theorem Spelling.head?_ne_lineFeed {k : Kind} {text : List Char} (h : Spelling k text)
    (ahead : List Char) : (text ++ ahead).head? ≠ some '\n' := by
  obtain ⟨c, cs, rfl⟩ := List.exists_cons_of_ne_nil h.ne_nil
  intro hc
  obtain rfl : c = '\n' := by simpa using hc
  exact absurd h.head_not_blank (by decide)

theorem Spelling.exists_body {text : List Char} (h : Spelling .quote text) :
    ∃ body, '"' ∉ body ∧ text = '"' :: (body ++ ['"']) := by
  cases h with
  | operator hop =>
    have hall : ∀ o ∈ Kind.operators, o.2 ≠ .quote := by decide
    exact absurd rfl (hall _ hop)
  | quote hbody => exact ⟨_, hbody, rfl⟩

/-- Only a quoted string goes over the end of a line. -/
theorem Spelling.not_lineEnd {k : Kind} {text : List Char} (h : Spelling k text)
    (hk : k ≠ .quote) : ∀ c ∈ text, CharClass.isLineEnd c = false := by
  -- a line end is a blank, and so no part of a word
  have hword {c : Char} (hc : CharClass.isWordPart c = true) : CharClass.isLineEnd c = false :=
    CharClass.not_lineEnd_of_not_blank (CharClass.isWordPart_alone hc).1
  intro c hc
  cases h with
  | operator hop =>
    obtain rfl := List.mem_singleton.mp hc
    exact CharClass.not_lineEnd_of_not_blank (CharClass.operator_alone hop).1
  | divide =>
    obtain rfl := List.mem_singleton.mp hc
    decide
  | identifier hd hcs =>
    rcases List.mem_cons.mp hc with rfl | hc
    · exact hword (by simp [CharClass.isWordPart, hd])
    · exact hword (hcs c hc)
  | number hd hcs =>
    rcases List.mem_cons.mp hc with rfl | hc
    · exact hword (by simp [CharClass.isWordPart, hd])
    · exact hword (by simp [CharClass.isWordPart, hcs c hc])
  | quote => exact absurd rfl hk
  | comment hbody =>
    rcases List.mem_cons.mp hc with rfl | hc
    · decide
    · rcases List.mem_cons.mp hc with rfl | hc
      · decide
      · exact hbody c hc

namespace CharClass

/-- Stands outside of quoted strings and comments: a blank, a part of a word, or an operator of
the table. -/
def isPlain (c : Char) : Bool :=
  isBlank c || isWordPart c || (Kind.ofChar? c).isSome

/-- Starts no token and is no blank. -/
def isForeign (c : Char) : Bool :=
  c != '/' && c != '"' && !isPlain c

theorem not_blank_of_foreign {c : Char} (hc : isForeign c = true) : isBlank c = false := by
  simp only [isForeign, isPlain, Bool.and_eq_true, Bool.not_eq_true', Bool.or_eq_false_iff] at hc
  exact hc.2.1.1

end CharClass

/-! ## §2 Longest -/

namespace Kind

theorem ofChar?_eq_some_iff {c : Char} {k : Kind} : ofChar? c = some k ↔ (c, k) ∈ operators := by
  constructor
  · intro h
    obtain ⟨o, ho, rfl⟩ := Option.map_eq_some_iff.mp h
    have hc : o.1 = c := by simpa using List.find?_some ho
    exact hc ▸ List.mem_of_find?_eq_some ho
  · intro h
    have hall : ∀ o ∈ operators, ofChar? o.1 = some o.2 := by decide
    exact hall (c, k) h

/-- Whether a character would make a token of a kind longer. -/
def goesOn : Kind → Char → Bool
  | identifier, c => CharClass.isWordPart c
  | number, c => c.isDigit
  | divide, c => c == '/'
  | comment, c => !CharClass.isLineEnd c
  | _, _ => false

/-- The same, seen from the first byte of the character. -/
def goesOnByte : Kind → UInt8 → Bool
  | identifier, b => ByteClass.isWordPart b
  | number, b => ByteClass.isDigit b
  | divide, b => b == ByteClass.slash
  | comment, b => !ByteClass.isLineEnd b
  | _, _ => false

/-- How many characters behind a token are passed with it: a comment takes one of its line end
along. -/
def trailing : Kind → Nat
  | comment => 1
  | _ => 0

theorem goesOn_of_mem_operators {c : Char} {k : Kind} (h : (c, k) ∈ operators) (d : Char) :
    k.goesOn d = false := by
  have hall : ∀ o ∈ operators, o.2 ≠ identifier ∧ o.2 ≠ number ∧ o.2 ≠ divide ∧ o.2 ≠ comment := by
    decide
  obtain ⟨hi, hn, hd, hc⟩ := hall (c, k) h
  cases k <;> first | rfl | contradiction

theorem goesOnByte_first {c : Char} {b : UInt8} {bs : List UInt8}
    (henc : String.utf8EncodeChar c = b :: bs) (k : Kind) : k.goesOnByte b = k.goesOn c := by
  cases k with
  | identifier => exact CharClass.isWordPart_agree.first henc
  | number => exact CharClass.isDigit_agree.first henc
  | divide => exact CharClass.slash_agree.first henc
  | comment => simp only [goesOnByte, goesOn, CharClass.isLineEnd_agree.first henc]
  | _ => rfl

theorem goesOnByte_of_mem_head?_encode {k : Kind} {rest : List Char}
    (hrest : ∀ c ∈ rest.head?, k.goesOn c = false) :
    ∀ b ∈ (Text.encode rest).head?, k.goesOnByte b = false := by
  intro b hb
  cases rest with
  | nil => simp at hb
  | cons c rest =>
    obtain ⟨b', bs, henc, _⟩ := Text.utf8EncodeChar_shape c
    obtain rfl : b' = b := by simpa [Text.encode_cons, henc] using hb
    rw [goesOnByte_first henc]
    exact hrest c rfl

theorem head?_ne_slash_of_divide {rest : List Char}
    (hrest : ∀ c ∈ rest.head?, divide.goesOn c = false) : rest.head? ≠ some '/' := by
  intro hslash
  simpa [goesOn] using hrest '/' hslash

theorem isLineEnd_of_comment {rest : List Char}
    (hrest : ∀ c ∈ rest.head?, comment.goesOn c = false) :
    ∀ c ∈ rest.head?, CharClass.isLineEnd c = true := by
  intro c hc
  simpa [goesOn] using hrest c hc

/-- A blank ends every token, except that a comment goes on to the end of its line. -/
theorem goesOn_blank {k : Kind} {c : Char} (hc : CharClass.isBlank c = true)
    (hend : k = .comment → CharClass.isLineEnd c = true) : k.goesOn c = false := by
  cases k with
  | identifier =>
    refine Bool.eq_false_iff.mpr fun hword => ?_
    simp [(CharClass.isWordPart_alone hword).1] at hc
  | number =>
    refine Bool.eq_false_iff.mpr fun hdigit => ?_
    simp [(CharClass.isDigit_alone hdigit).1] at hc
  | divide =>
    refine Bool.eq_false_iff.mpr fun hslash => ?_
    obtain rfl : c = '/' := by simpa [goesOn] using hslash
    exact absurd hc (by decide)
  | comment => simp [goesOn, hend rfl]
  | _ => rfl

theorem isBlank_of_trailing {k : Kind} {rest : List Char}
    (hrest : ∀ c ∈ rest.head?, k.goesOn c = false) :
    ∀ c ∈ rest.take k.trailing, CharClass.isBlank c = true := by
  intro c hc
  cases k with
  | comment =>
    cases rest with
    | nil => simp at hc
    | cons d rest =>
      have hd : CharClass.isLineEnd d = true := isLineEnd_of_comment hrest d rfl
      obtain rfl : c = d := by simpa [trailing] using hc
      simp [CharClass.isBlank, hd]
  | _ => simp [trailing] at hc

end Kind

/-! ## §3 Fronts -/

/-- What a text can begin with. Blanks come first; then the text is over, or a token stands
there that could not be longer, or a character that starts no token, or a quote that is never
closed. -/
inductive Front : List Char → Prop
  | blank {gap : List Char} (hgap : ∀ c ∈ gap, CharClass.isBlank c = true) : Front gap
  | token {gap text rest : List Char} {k : Kind} (hgap : ∀ c ∈ gap, CharClass.isBlank c = true)
      (htext : Spelling k text) (hrest : ∀ c ∈ rest.head?, k.goesOn c = false) :
      Front (gap ++ (text ++ rest))
  | foreign {gap rest : List Char} {c : Char} (hgap : ∀ c ∈ gap, CharClass.isBlank c = true)
      (hc : CharClass.isForeign c = true) : Front (gap ++ c :: rest)
  | openQuote {gap rest : List Char} (hgap : ∀ c ∈ gap, CharClass.isBlank c = true)
      (hrest : '"' ∉ rest) : Front (gap ++ '"' :: rest)

/-- The longest run of a class, and what is behind it. -/
theorem exists_run (q : Char → Bool) (cs : List Char) :
    ∃ run rest, cs = run ++ rest ∧ (∀ c ∈ run, q c = true) ∧ ∀ c ∈ rest.head?, q c = false := by
  refine ⟨cs.takeWhile q, cs.dropWhile q, List.takeWhile_append_dropWhile.symm, ?_, ?_⟩
  · intro c hc
    exact List.all_eq_true.mp List.all_takeWhile c hc
  · intro c hc
    have := List.head?_dropWhile_not q cs
    rw [Option.mem_def.mp hc] at this
    simpa using this

/-- A slash begins a comment if another one follows, and is a division sign if not. -/
theorem front_slash {gap : List Char} (hgap : ∀ c ∈ gap, CharClass.isBlank c = true)
    (cs : List Char) : Front (gap ++ '/' :: cs) := by
  by_cases hnext : cs.head? = some '/'
  · obtain ⟨cs, rfl⟩ := List.head?_eq_some_iff.mp hnext
    obtain ⟨body, rest, rfl, hbody, hrest⟩ := exists_run (fun c => !CharClass.isLineEnd c) cs
    have hspell : Spelling .comment ('/' :: '/' :: body) :=
      .comment fun d hd => by simpa using hbody d hd
    exact Front.token hgap hspell hrest
  · have hstop : ∀ c ∈ cs.head?, Kind.divide.goesOn c = false := by
      intro c hc
      have : c ≠ '/' := fun h => hnext (h ▸ hc)
      simpa [Kind.goesOn] using this
    exact Front.token hgap .divide hstop

/-- A quote begins a quoted string if there is another one behind it. -/
theorem front_quote {gap : List Char} (hgap : ∀ c ∈ gap, CharClass.isBlank c = true)
    (cs : List Char) : Front (gap ++ '"' :: cs) := by
  obtain ⟨body, rest, rfl, hbody, hrest⟩ := exists_run (· != '"') cs
  have hfree : '"' ∉ body := fun hmem => by simpa using hbody '"' hmem
  cases rest with
  | nil => exact .openQuote hgap (by simpa using hfree)
  | cons c rest =>
    obtain rfl : c = '"' := by simpa using hrest c rfl
    have hstop : ∀ c ∈ rest.head?, Kind.quote.goesOn c = false := fun _ _ => rfl
    have := Front.token hgap (.quote hfree) hstop
    simpa using this

theorem front (cs : List Char) : Front cs := by
  obtain ⟨gap, rest, rfl, hgap, hrest⟩ := exists_run CharClass.isBlank cs
  cases rest with
  | nil => exact (List.append_nil gap).symm ▸ Front.blank hgap
  | cons c rest =>
    have hblank : CharClass.isBlank c = false := hrest c rfl
    by_cases hslash : c = '/'
    · exact hslash ▸ front_slash hgap rest
    by_cases hquote : c = '"'
    · exact hquote ▸ front_quote hgap rest
    cases hop : Kind.ofChar? c with
    | some k =>
      have hmem := Kind.ofChar?_eq_some_iff.mp hop
      have hstop : ∀ d ∈ rest.head?, k.goesOn d = false :=
        fun d _ => Kind.goesOn_of_mem_operators hmem d
      exact Front.token hgap (.operator hmem) hstop
    | none =>
      by_cases hword : CharClass.isWordStart c = true
      · obtain ⟨run, rest, rfl, hrun, hstop⟩ := exists_run CharClass.isWordPart rest
        exact Front.token hgap (.identifier hword hrun) hstop
      by_cases hdigit : c.isDigit = true
      · obtain ⟨run, rest, rfl, hrun, hstop⟩ := exists_run Char.isDigit rest
        exact Front.token hgap (.number hdigit hrun) hstop
      refine .foreign hgap ?_
      simp [CharClass.isForeign, CharClass.isPlain, CharClass.isWordPart, hslash, hquote, hblank,
        hop, hword, hdigit]

/-! ## §4 Induction -/

/-- From the front of a text to its end: what holds of a text that no token begins, and of a text
that a token begins if it holds behind the token, holds of every text. `passed` is what has been
read already. -/
@[elab_as_elim]
theorem frontInduction {motive : List Char → List Char → Prop}
    (blank : ∀ passed gap, (∀ c ∈ gap, CharClass.isBlank c = true) → motive passed gap)
    (foreign : ∀ passed gap c rest, (∀ c ∈ gap, CharClass.isBlank c = true) →
      CharClass.isForeign c = true → motive passed (gap ++ c :: rest))
    (openQuote : ∀ passed gap rest, (∀ c ∈ gap, CharClass.isBlank c = true) →
      '"' ∉ rest → motive passed (gap ++ '"' :: rest))
    (token : ∀ passed gap text rest k, (∀ c ∈ gap, CharClass.isBlank c = true) →
      Spelling k text → (∀ c ∈ rest.head?, k.goesOn c = false) →
      motive (passed ++ gap ++ text ++ rest.take k.trailing) (rest.drop k.trailing) →
      motive passed (gap ++ (text ++ rest)))
    (passed ahead : List Char) : motive passed ahead := by
  cases front ahead with
  | blank hgap => exact blank passed ahead hgap
  | foreign hgap hc => exact foreign passed _ _ _ hgap hc
  | openQuote hgap hrest => exact openQuote passed _ _ hgap hrest
  | @token gap text rest k hgap htext hrest =>
    have hpos : 0 < text.length := List.length_pos_iff.mpr htext.ne_nil
    exact token passed gap text rest k hgap htext hrest
      (frontInduction blank foreign openQuote token _ _)
termination_by ahead.length
decreasing_by
  simp only [List.length_append, List.length_drop]
  omega

/-- The same, with nothing but its text read of each token: the line end that is passed with a
comment is left for the blanks in front of the next token. -/
@[elab_as_elim]
theorem textInduction {motive : List Char → List Char → Prop}
    (blank : ∀ passed gap, (∀ c ∈ gap, CharClass.isBlank c = true) → motive passed gap)
    (foreign : ∀ passed gap c rest, (∀ c ∈ gap, CharClass.isBlank c = true) →
      CharClass.isForeign c = true → motive passed (gap ++ c :: rest))
    (openQuote : ∀ passed gap rest, (∀ c ∈ gap, CharClass.isBlank c = true) →
      '"' ∉ rest → motive passed (gap ++ '"' :: rest))
    (token : ∀ passed gap text rest k, (∀ c ∈ gap, CharClass.isBlank c = true) →
      Spelling k text → (∀ c ∈ rest.head?, k.goesOn c = false) →
      motive (passed ++ gap ++ text) rest → motive passed (gap ++ (text ++ rest)))
    (passed ahead : List Char) : motive passed ahead := by
  cases front ahead with
  | blank hgap => exact blank passed ahead hgap
  | foreign hgap hc => exact foreign passed _ _ _ hgap hc
  | openQuote hgap hrest => exact openQuote passed _ _ hgap hrest
  | @token gap text rest k hgap htext hrest =>
    have hpos : 0 < text.length := List.length_pos_iff.mpr htext.ne_nil
    exact token passed gap text rest k hgap htext hrest
      (textInduction blank foreign openQuote token _ _)
termination_by ahead.length
decreasing_by
  simp only [List.length_append]
  omega

end Lexeme
