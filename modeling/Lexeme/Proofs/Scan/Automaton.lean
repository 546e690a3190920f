/-
Lexeme.Proofs.Scan.Automaton — which texts split into tokens.

Whether a text can be scanned is a question that needs no tokens: an
automaton with four kinds of state reads it character by character and knows
nothing of bytes, of the longest token or of what comes next. `verdict` is what
it says of a text, and `failure_eq_verdict` that a scan fails exactly so. The
proof goes front by front: the automaton is `Ready` before each of them, and
reading it over a token leaves it ready again.

  §1 Automaton  — states, steps and the verdict.
  §2 Reading    — over one piece behind another, and over pieces of one class.
  §3 Simulation — over blanks, tokens and errors.
-/
import Lexeme.Proofs.Scan.Run

namespace Lexeme

/-! ## §1 Automaton -/

/-- What the characters read so far have begun. -/
inductive Mode where
  | code
  /-- A slash, which may turn out to begin a comment. -/
  | slash
  /-- A quoted string, opened at an offset. -/
  | quote (opening : Nat)
  | comment
deriving DecidableEq, Repr

namespace Mode

/-- A character of code, at a byte offset; one that may not stand there is refused. -/
def stepCode (offset : Nat) (c : Char) : Except (Nat × Char) Mode :=
  if c = '/' then .ok .slash
  else if c = '"' then .ok (.quote offset)
  else if CharClass.isPlain c then .ok .code
  else .error (offset, c)

/-- One character, at a byte offset. -/
def step (offset : Nat) (c : Char) : Mode → Except (Nat × Char) Mode
  | code => stepCode offset c
  | slash => if c = '/' then .ok .comment else stepCode offset c
  | quote opening => .ok (if c = '"' then .code else .quote opening)
  | comment => .ok (if CharClass.isLineEnd c then .code else .comment)

/-- All characters, the first of them at a byte offset. -/
def read : Mode → Nat → List Char → Except (Nat × Char) Mode
  | m, _, [] => .ok m
  | m, offset, c :: cs =>
    match m.step offset c with
    | .ok m' => m'.read (offset + c.utf8Size) cs
    | .error e => .error e

/-- The automaton on a whole text. -/
def ofString (source : String) : Except (Nat × Char) Mode :=
  Mode.code.read 0 source.toList

/-- The error of a scan that the automaton foretells: it refuses a character, or is left in a
quoted string. -/
def verdict : Except (Nat × Char) Mode → Option ScanError
  | .error (offset, c) => some (.unexpected offset c)
  | .ok (.quote opening) => some (.openQuote opening)
  | .ok _ => none

/-! ## §2 Reading -/

theorem read_append (m : Mode) (offset : Nat) (cs ds : List Char) {m' : Mode}
    (h : m.read offset cs = .ok m') :
    m.read offset (cs ++ ds) = m'.read (offset + (Text.encode cs).length) ds := by
  induction cs generalizing m offset with
  | nil =>
    obtain rfl := Except.ok.inj h
    simp
  | cons c cs ih =>
    rw [read] at h
    rw [List.cons_append, read]
    cases hstep : m.step offset c with
    | error e => simp [hstep] at h
    | ok m'' =>
      simp only [hstep] at h
      simp only [ih _ _ h, Text.encode_cons, List.length_append, String.length_utf8EncodeChar,
        Nat.add_assoc]

theorem read_of_stays {m : Mode} {cs : List Char}
    (h : ∀ c ∈ cs, ∀ offset, m.step offset c = .ok m) (offset : Nat) :
    m.read offset cs = .ok m := by
  induction cs generalizing offset with
  | nil => rfl
  | cons c cs ih =>
    rw [read, h c (by simp)]
    exact ih (fun d hd => h d (by simp [hd])) _

theorem read_cons {m m' : Mode} {offset : Nat} {c : Char} (h : m.step offset c = .ok m')
    (cs : List Char) : m.read offset (c :: cs) = m'.read (offset + c.utf8Size) cs := by
  rw [read, h]

/-- What the next character finds is code. It may be behind a slash, if it is no slash itself; and
behind a comment only if there is none. -/
def Ready (m : Mode) (ahead : List Char) : Prop :=
  m = .code ∨ m = .slash ∧ ahead.head? ≠ some '/' ∨ m = .comment ∧ ahead = []

theorem Ready.step {m : Mode} {c : Char} {cs : List Char} (h : m.Ready (c :: cs)) (offset : Nat) :
    m.step offset c = stepCode offset c := by
  obtain rfl | ⟨rfl, hc⟩ | ⟨_, hnil⟩ := h
  · rfl
  · have : c ≠ '/' := by simpa using hc
    simp [Mode.step, this]
  · simp at hnil

theorem Ready.verdict_eq_none {m : Mode} (h : m.Ready []) : verdict (.ok m) = none := by
  obtain rfl | ⟨rfl, _⟩ | ⟨rfl, _⟩ := h <;> rfl

theorem stepCode_plain {c : Char} (hc : CharClass.isPlain c = true) (offset : Nat) :
    stepCode offset c = .ok .code := by
  have hslash : c ≠ '/' := by
    rintro rfl
    exact absurd hc (by decide)
  have hquote : c ≠ '"' := by
    rintro rfl
    exact absurd hc (by decide)
  simp [stepCode, hslash, hquote, hc]

theorem stepCode_foreign {c : Char} (hc : CharClass.isForeign c = true) (offset : Nat) :
    stepCode offset c = .error (offset, c) := by
  simp only [CharClass.isForeign, bne_iff_ne, ne_eq, Bool.and_eq_true, Bool.not_eq_true'] at hc
  obtain ⟨⟨hslash, hquote⟩, hplain⟩ := hc
  simp [stepCode, hslash, hquote, hplain]

/-! ## §3 Simulation -/

theorem read_plain {m : Mode} {cs rest : List Char} (hcs : ∀ c ∈ cs, CharClass.isPlain c = true)
    (hm : m.Ready (cs ++ rest)) (offset : Nat) :
    ∃ m', m.read offset cs = .ok m' ∧ m'.Ready rest := by
  cases cs with
  | nil => exact ⟨m, rfl, hm⟩
  | cons c cs =>
    have hfirst : m.step offset c = .ok .code := by
      rw [hm.step, stepCode_plain (hcs c (by simp))]
    have hstay : ∀ d ∈ cs, ∀ i, Mode.code.step i d = .ok .code :=
      fun d hd i => stepCode_plain (hcs d (by simp [hd])) i
    refine ⟨.code, ?_, .inl rfl⟩
    rw [read_cons hfirst, read_of_stays hstay]

theorem read_blank {m : Mode} {gap rest : List Char}
    (hgap : ∀ c ∈ gap, CharClass.isBlank c = true) (hm : m.Ready (gap ++ rest)) (offset : Nat) :
    ∃ m', m.read offset gap = .ok m' ∧ m'.Ready rest := by
  have hplain : ∀ c ∈ gap, CharClass.isPlain c = true := by
    intro c hc
    simp [CharClass.isPlain, hgap c hc]
  exact read_plain hplain hm offset

theorem read_word {m : Mode} {word rest : List Char}
    (hword : ∀ c ∈ word, CharClass.isWordPart c = true) (hm : m.Ready (word ++ rest))
    (offset : Nat) : ∃ m', m.read offset word = .ok m' ∧ m'.Ready rest := by
  have hplain : ∀ c ∈ word, CharClass.isPlain c = true := by
    intro c hc
    simp [CharClass.isPlain, hword c hc]
  exact read_plain hplain hm offset

theorem read_quoted {body : List Char} (hbody : '"' ∉ body) (opening offset : Nat) :
    (Mode.quote opening).read offset body = .ok (.quote opening) := by
  refine read_of_stays ?_ offset
  intro c hc i
  have hne : c ≠ '"' := by simpa using Scanner.beq_quote_of_not_mem hbody c hc
  simp [step, hne]

theorem read_commented {body : List Char} (hbody : ∀ d ∈ body, CharClass.isLineEnd d = false)
    (offset : Nat) : Mode.comment.read offset body = .ok .comment := by
  refine read_of_stays ?_ offset
  intro c hc i
  simp [step, hbody c hc]

/-- A comment and what a scan passes with it: its line end, unless the text is over. -/
theorem read_comment {m : Mode} {body rest : List Char}
    (hbody : ∀ d ∈ body, CharClass.isLineEnd d = false)
    (hrest : ∀ d ∈ rest.head?, CharClass.isLineEnd d = true)
    (hm : m.Ready ('/' :: '/' :: body ++ rest)) (offset : Nat) :
    ∃ m', m.read offset ('/' :: '/' :: body ++ rest.take 1) = .ok m' ∧
      m'.Ready (rest.drop 1) := by
  have hfirst : m.step offset '/' = .ok .slash := hm.step offset
  have hsecond : ∀ i, Mode.slash.step i '/' = .ok .comment := fun _ => rfl
  rw [List.cons_append, List.cons_append, read_cons hfirst, read_cons (hsecond _),
    read_append _ _ _ _ (read_commented hbody _)]
  cases rest with
  | nil => exact ⟨.comment, rfl, .inr (.inr ⟨rfl, rfl⟩)⟩
  | cons d rest =>
    have hend : ∀ i, Mode.comment.step i d = .ok .code := by simp [step, hrest d rfl]
    exact ⟨.code, read_cons (hend _) [], .inl rfl⟩

/-- A token, and what is passed with it, takes code to code. -/
theorem read_spelling {m : Mode} {k : Kind} {text rest : List Char} (htext : Spelling k text)
    (hrest : ∀ c ∈ rest.head?, k.goesOn c = false) (hm : m.Ready (text ++ rest)) (offset : Nat) :
    ∃ m', m.read offset (text ++ rest.take k.trailing) = .ok m' ∧
      m'.Ready (rest.drop k.trailing) := by
  cases htext with
  | @operator c _ hop =>
    have hall : ∀ o ∈ Kind.operators, o.2.trailing = 0 ∧ CharClass.isPlain o.1 = true := by decide
    obtain ⟨hzero, hplain⟩ := hall (c, k) hop
    rw [hzero, List.take_zero, List.drop_zero, List.append_nil]
    exact read_plain (by simpa using hplain) hm offset
  | divide =>
    have hfirst : m.step offset '/' = .ok .slash := hm.step offset
    have hnext := Kind.head?_ne_slash_of_divide hrest
    exact ⟨.slash, read_cons hfirst [], .inr (.inl ⟨rfl, hnext⟩)⟩
  | @identifier c cs hc hcs =>
    have hword : ∀ d ∈ c :: cs, CharClass.isWordPart d = true := by
      intro d hd
      rcases List.mem_cons.mp hd with rfl | hd
      · simp [CharClass.isWordPart, hc]
      · exact hcs d hd
    simpa [Kind.trailing] using read_word hword hm offset
  | @number c cs hc hcs =>
    have hword : ∀ d ∈ c :: cs, CharClass.isWordPart d = true := by
      intro d hd
      rcases List.mem_cons.mp hd with rfl | hd
      · simp [CharClass.isWordPart, hc]
      · simp [CharClass.isWordPart, hcs d hd]
    simpa [Kind.trailing] using read_word hword hm offset
  | @quote body hbody =>
    have hfirst : m.step offset '"' = .ok (.quote offset) := hm.step offset
    have hlast : ∀ i, (Mode.quote offset).step i '"' = .ok .code := fun _ => rfl
    refine ⟨.code, ?_, .inl rfl⟩
    show m.read offset ('"' :: (body ++ ['"']) ++ []) = .ok .code
    rw [List.append_nil, read_cons hfirst, read_append _ _ _ _ (read_quoted hbody _ _),
      read_cons (hlast _), read]
  | comment hbody =>
    exact read_comment hbody (Kind.isLineEnd_of_comment hrest) hm offset

/-- A scan fails as the automaton says, wherever it stands. -/
theorem failure_eq_verdict (passed ahead : List Char) :
    ∀ (mark : Cursor) (m : Mode), m.Ready ahead →
      (Scanner.scanning passed ahead mark).run.failure =
        verdict (m.read (Text.encode passed).length ahead) := by
  induction passed, ahead using frontInduction with
  | blank passed gap hgap =>
    intro mark m hm
    have hnil : m.Ready (gap ++ []) := (List.append_nil gap).symm ▸ hm
    obtain ⟨m', hread, hm'⟩ := read_blank hgap hnil (Text.encode passed).length
    rw [Scanner.run_blank hgap, hread, hm'.verdict_eq_none]
  | foreign passed gap c rest hgap hc =>
    intro mark m hm
    obtain ⟨m', hread, hm'⟩ := read_blank hgap hm (Text.encode passed).length
    rw [Scanner.run_foreign hgap _ mark hc, read_append _ _ _ _ hread, read, hm'.step,
      stepCode_foreign hc, Text.encode_append, List.length_append]
    rfl
  | openQuote passed gap rest hgap hrest =>
    intro mark m hm
    obtain ⟨m', hread, hm'⟩ := read_blank hgap hm (Text.encode passed).length
    have hopen : ∀ i, m'.step i '"' = .ok (.quote i) := fun i => hm'.step i
    rw [Scanner.run_openQuote hgap _ mark hrest, read_append _ _ _ _ hread, read_cons (hopen _),
      read_quoted hrest, Text.encode_append, List.length_append]
    rfl
  | token passed gap text rest k hgap htext hrest ih =>
    intro mark m hm
    obtain ⟨m', hread, hm'⟩ := read_blank hgap hm (Text.encode passed).length
    obtain ⟨m'', hread', hm''⟩ := read_spelling htext hrest hm'
      ((Text.encode passed).length + (Text.encode gap).length)
    have hsplit : text ++ rest = text ++ rest.take k.trailing ++ rest.drop k.trailing := by simp
    have hbehind := ih (Cursor.between (passed ++ gap) (text ++ rest)) m'' hm''
    rw [Scanner.run_token hgap _ mark htext hrest, read_append _ _ _ _ hread, hsplit,
      read_append _ _ _ _ hread']
    rw [← hsplit]
    refine hbehind.trans ?_
    simp only [Text.encode_append, List.length_append, Nat.add_assoc]

end Mode

/-- **A scan fails exactly as the automaton does.** It finds an unexpected character if that is
where the automaton refuses one, an open quote if the automaton is left in the string that it
opened, and otherwise nothing but tokens. -/
theorem tokenize_iff_automaton (source : String) :
    (∀ offset c, tokenize source = .error (.unexpected offset c) ↔
      Mode.ofString source = .error (offset, c)) ∧
    (∀ offset, tokenize source = .error (.openQuote offset) ↔
      Mode.ofString source = .ok (.quote offset)) ∧
    ((∃ ts, tokenize source = .ok ts) ↔
      ∃ m, Mode.ofString source = .ok m ∧ ∀ offset, m ≠ .quote offset) := by
  have hfail : (Scanner.ofString source).run.failure = Mode.verdict (Mode.ofString source) := by
    rw [Scanner.ofString_eq_scanning]
    exact Mode.failure_eq_verdict [] source.toList _ .code (.inl rfl)
  rw [Scanner.tokenize_eq_run]
  unfold Scanner.Run.result
  rw [hfail]
  cases Mode.ofString source with
  | error e =>
    obtain ⟨o, c⟩ := e
    simp [Mode.verdict]
  | ok m => cases m <;> simp [Mode.verdict]

/-- A quote in a comment opens nothing, and one behind its line end does. -/
example : Mode.ofString "a///\"\n\"é" = .ok (.quote 6) := by rfl

end Lexeme
