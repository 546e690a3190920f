/-
Lexeme.Proofs.Scan.Step — what one call of a scanner does with each front.

A scanner that stands between two characters finds what the grammar says, and
stands between two characters again. The dispatch is walked once, in
`read?_between`, which restates it in characters; every reading below starts
from it, and `next_token`, `next_blank`, `next_foreign` and `next_openQuote`
are all that later proofs know about a call.

  §1 Dispatch — reading by the next character.
  §2 Readings — one for each way a token, or an error, can begin.
  §3 Calls    — the same behind blanks.
-/
import Lexeme.Proofs.Cursor.Between
import Lexeme.Proofs.Scan.Grammar
import Lexeme.Scan.Scanner

namespace Lexeme.Scanner

open Cursor

/-! ## §1 Dispatch -/

theorem peek?_one_between {c : Char} (hc : c.toNat < 0x80) (passed cs : List Char) :
    (between passed (c :: cs)).peek? 1 = (Text.encode cs).head? := by
  simp [peek?, Text.encode_cons, Text.utf8EncodeChar_of_ascii hc, List.head?_eq_getElem?]

theorem slash_follows (cs : List Char) :
    ((Text.encode cs).head? == some ByteClass.slash) = (cs.head? == some '/') := by
  cases cs with
  | nil => rfl
  | cons c cs =>
    obtain ⟨b, bs, henc, _⟩ := Text.utf8EncodeChar_shape c
    have hfirst : (b == ByteClass.slash) = (c == '/') := CharClass.slash_agree.first henc
    simp [Text.encode_cons, henc, hfirst]

/-- What stands at a cursor is decided by the next character, and by the one behind it if the
first is a slash. -/
theorem read?_between {c : Char} {b : UInt8} {bs : List UInt8}
    (henc : String.utf8EncodeChar c = b :: bs) (passed cs : List Char) :
    read? (between passed (c :: cs)) b =
      let mark := between passed (c :: cs)
      if c == '/' then
        if cs.head? == some '/' then comment? mark else upTo? .divide mark mark.advance
      else
        match Kind.ofChar? c with
        | some kind => upTo? kind mark mark.advance
        | none =>
          if CharClass.isWordStart c then
            upTo? .identifier mark (mark.advance.eatWhile ByteClass.isWordPart)
          else if c.isDigit then upTo? .number mark (mark.eatWhile ByteClass.isDigit)
          else if c == '"' then quoted? mark
          else some (.error (.unexpected mark.position c)) := by
  have hslash : (b == ByteClass.slash) = (c == '/') := CharClass.slash_agree.first henc
  have hquote : (b == ByteClass.quote) = (c == '"') := CharClass.quote_agree.first henc
  unfold read?
  rw [hslash, hquote, CharClass.operator_agree.first henc, CharClass.isWordStart_agree.first henc,
    CharClass.isDigit_agree.first henc, char?_between]
  by_cases hc : c = '/'
  · subst hc
    rw [peek?_one_between (by decide), slash_follows]
    rfl
  · simp only [beq_iff_eq, if_neg hc]
    rfl

theorem upTo?_between (k : Kind) (passed text rest : List Char) :
    upTo? k (between passed (text ++ rest)) (between (passed ++ text) rest) =
      some (.token ⟨k, String.ofList text, (Text.encode passed).length⟩
        (between (passed ++ text) rest)) := by
  simp only [upTo?, emit?, since?_between, position_between, Option.map_some]

/-! ## §2 Readings -/

section
variable {c : Char} {b : UInt8} {bs : List UInt8} (passed : List Char)

theorem read?_operator (henc : String.utf8EncodeChar c = b :: bs) {k : Kind}
    (hop : (c, k) ∈ Kind.operators) (rest : List Char) :
    read? (between passed (c :: rest)) b =
      some (.token ⟨k, String.ofList [c], (Text.encode passed).length⟩
        (between (passed ++ [c]) rest)) := by
  obtain ⟨-, hslash, hascii⟩ := CharClass.operator_alone hop
  rw [read?_between henc]
  simp only [beq_iff_eq, if_neg hslash, Kind.ofChar?_eq_some_iff.mpr hop, advance_between hascii]
  exact upTo?_between k passed [c] rest

theorem read?_divide (henc : String.utf8EncodeChar '/' = b :: bs) {rest : List Char}
    (hrest : rest.head? ≠ some '/') :
    read? (between passed ('/' :: rest)) b =
      some (.token ⟨.divide, String.ofList ['/'], (Text.encode passed).length⟩
        (between (passed ++ ['/']) rest)) := by
  rw [read?_between henc]
  simp only [beq_self_eq_true, if_true, beq_iff_eq, if_neg hrest,
    advance_between (c := '/') (by decide)]
  exact upTo?_between .divide passed ['/'] rest

theorem read?_identifier (henc : String.utf8EncodeChar c = b :: bs)
    (hc : CharClass.isWordStart c = true) {run rest : List Char}
    (hrun : ∀ d ∈ run, CharClass.isWordPart d = true)
    (hrest : ∀ d ∈ rest.head?, CharClass.isWordPart d = false) :
    read? (between passed (c :: (run ++ rest))) b =
      some (.token ⟨.identifier, String.ofList (c :: run), (Text.encode passed).length⟩
        (between (passed ++ c :: run) rest)) := by
  obtain ⟨-, hslash, hop⟩ := CharClass.isWordStart_alone hc
  have hascii := CharClass.isWordStart_agree.lt_of_class hc
  have hstop : ((between passed (c :: (run ++ rest))).advance).eatWhile ByteClass.isWordPart =
      between (passed ++ c :: run) rest := by
    rw [advance_between hascii, eatWhile_between CharClass.isWordPart_agree hrun hrest,
      List.append_assoc, List.singleton_append]
  rw [read?_between henc]
  simp only [beq_iff_eq, if_neg hslash, hop, if_pos hc, hstop]
  exact upTo?_between .identifier passed (c :: run) rest

theorem read?_number (henc : String.utf8EncodeChar c = b :: bs) (hc : c.isDigit = true)
    {run rest : List Char} (hrun : ∀ d ∈ run, d.isDigit = true)
    (hrest : ∀ d ∈ rest.head?, d.isDigit = false) :
    read? (between passed (c :: (run ++ rest))) b =
      some (.token ⟨.number, String.ofList (c :: run), (Text.encode passed).length⟩
        (between (passed ++ c :: run) rest)) := by
  obtain ⟨-, hslash, hop, hword⟩ := CharClass.isDigit_alone hc
  have hall : ∀ d ∈ c :: run, d.isDigit = true := by
    intro d hd
    rcases List.mem_cons.mp hd with rfl | hd
    · exact hc
    · exact hrun d hd
  have hstop : (between passed (c :: run ++ rest)).eatWhile ByteClass.isDigit =
      between (passed ++ c :: run) rest :=
    eatWhile_between CharClass.isDigit_agree hall hrest passed
  rw [List.cons_append] at hstop
  rw [read?_between henc]
  simp only [beq_iff_eq, if_neg hslash, hop, hword, Bool.false_eq_true, if_false, if_pos hc, hstop]
  exact upTo?_between .number passed (c :: run) rest

end

theorem read?_eq_quoted? {b : UInt8} {bs : List UInt8}
    (henc : String.utf8EncodeChar '"' = b :: bs) (passed cs : List Char) :
    read? (between passed ('"' :: cs)) b = quoted? (between passed ('"' :: cs)) := by
  rw [read?_between henc]
  rfl

theorem beq_quote_of_not_mem {cs : List Char} (h : '"' ∉ cs) : ∀ c ∈ cs, (c == '"') = false := by
  intro c hc
  rw [beq_eq_false_iff_ne]
  rintro rfl
  exact h hc

theorem read?_quote {b : UInt8} {bs : List UInt8} (henc : String.utf8EncodeChar '"' = b :: bs)
    {body : List Char} (hbody : '"' ∉ body) (passed rest : List Char) :
    read? (between passed ('"' :: (body ++ '"' :: rest))) b =
      some (.token ⟨.quote, String.ofList ('"' :: (body ++ ['"'])), (Text.encode passed).length⟩
        (between (passed ++ '"' :: (body ++ ['"'])) rest)) := by
  have hfree := beq_quote_of_not_mem hbody
  have hfind : (between passed ('"' :: (body ++ '"' :: rest))).findByte? ByteClass.quote 1 =
      some (Text.encode (['"'] ++ body)).length :=
    find?_between CharClass.quote_agree ['"'] hfree rfl passed rest
  have hstop : (between passed ('"' :: (body ++ '"' :: rest))).advanceBy
      ((Text.encode (['"'] ++ body)).length + 1) =
        between (passed ++ '"' :: (body ++ ['"'])) rest := by
    have hlen : (Text.encode ('"' :: (body ++ ['"']))).length =
        (Text.encode (['"'] ++ body)).length + 1 := by
      rw [← List.cons_append, Text.encode_append, List.length_append]
      rfl
    rw [← hlen]
    simpa using advanceBy_between passed ('"' :: (body ++ ['"'])) rest
  rw [read?_eq_quoted? henc, quoted?, hfind]
  simp only [hstop]
  have := upTo?_between .quote passed ('"' :: (body ++ ['"'])) rest
  simpa using this

theorem read?_openQuote {b : UInt8} {bs : List UInt8} (henc : String.utf8EncodeChar '"' = b :: bs)
    {rest : List Char} (hrest : '"' ∉ rest) (passed : List Char) :
    read? (between passed ('"' :: rest)) b =
      some (.error (.openQuote (Text.encode passed).length)) := by
  have hfree := beq_quote_of_not_mem hrest
  have hfind : (between passed ('"' :: rest)).findByte? ByteClass.quote 1 = none :=
    find?_between_eq_none CharClass.quote_agree ['"'] hfree passed
  rw [read?_eq_quoted? henc, quoted?, hfind]
  simp only [position_between]

/-- A comment at the end of the text runs to the end; any other leaves its line end out and passes
one character of it. -/
theorem read?_comment {b : UInt8} {bs : List UInt8} (henc : String.utf8EncodeChar '/' = b :: bs)
    {body rest : List Char} (hbody : ∀ d ∈ body, CharClass.isLineEnd d = false)
    (hrest : ∀ d ∈ rest.head?, CharClass.isLineEnd d = true) (passed : List Char) :
    read? (between passed ('/' :: '/' :: (body ++ rest))) b =
      some (.token ⟨.comment, String.ofList ('/' :: '/' :: body), (Text.encode passed).length⟩
        (between (passed ++ '/' :: '/' :: body ++ rest.take 1) (rest.drop 1))) := by
  have hread : read? (between passed ('/' :: '/' :: (body ++ rest))) b =
      comment? (between passed ('/' :: '/' :: (body ++ rest))) := by
    rw [read?_between henc]
    rfl
  rw [hread, comment?]
  cases rest with
  | nil =>
    have hfind : (between passed ('/' :: '/' :: body)).findLineEnd? 2 = none :=
      find?_between_eq_none CharClass.isLineEnd_agree ['/', '/'] hbody passed
    have hcut := upTo?_between .comment passed ('/' :: '/' :: body) []
    simp only [List.append_nil] at hcut
    simp only [List.append_nil, List.take_nil, List.drop_nil, hfind, advanceBy_size_between, hcut]
  | cons e rest =>
    have he : CharClass.isLineEnd e = true := hrest e rfl
    have hascii := CharClass.isLineEnd_agree.lt_of_class he
    have hfind : (between passed ('/' :: '/' :: (body ++ e :: rest))).findLineEnd? 2 =
        some (Text.encode ('/' :: '/' :: body)).length :=
      find?_between CharClass.isLineEnd_agree ['/', '/'] hbody he passed rest
    have hstop : (between passed ('/' :: '/' :: (body ++ e :: rest))).advanceBy
        (Text.encode ('/' :: '/' :: body)).length =
        between (passed ++ '/' :: '/' :: body) (e :: rest) :=
      advanceBy_between passed ('/' :: '/' :: body) (e :: rest)
    have hcut := since?_between passed ('/' :: '/' :: body) (e :: rest)
    simp only [List.cons_append] at hcut
    simp only [hfind, hstop, emit?, hcut, Option.map_some, position_between,
      advance_between hascii]
    rfl

theorem read?_foreign {c : Char} {b : UInt8} {bs : List UInt8}
    (henc : String.utf8EncodeChar c = b :: bs) (hc : CharClass.isForeign c = true)
    (passed rest : List Char) :
    read? (between passed (c :: rest)) b =
      some (.error (.unexpected (Text.encode passed).length c)) := by
  simp only [CharClass.isForeign, CharClass.isPlain, CharClass.isWordPart, bne_iff_ne, ne_eq,
    Bool.and_eq_true, Bool.not_eq_true', Bool.or_eq_false_iff, Option.isSome_eq_false_iff,
    Option.isNone_iff_eq_none] at hc
  obtain ⟨⟨hslash, hquote⟩, ⟨-, hword, hdigit⟩, hop⟩ := hc
  rw [read?_between henc]
  simp [hslash, hquote, hword, hdigit, hop]

theorem read?_spelling {k : Kind} {text rest : List Char} (htext : Spelling k text)
    (hrest : ∀ c ∈ rest.head?, k.goesOn c = false) (passed : List Char) {b : UInt8}
    (hb : (between passed (text ++ rest)).byte? = some b) :
    read? (between passed (text ++ rest)) b =
      some (.token ⟨k, String.ofList text, (Text.encode passed).length⟩
        (between (passed ++ text ++ rest.take k.trailing) (rest.drop k.trailing))) := by
  -- all kinds but comments stop right behind their text
  have hstay : k ≠ .comment → rest.take k.trailing = [] ∧ rest.drop k.trailing = rest := by
    intro hk
    have : k.trailing = 0 := by cases k <;> first | rfl | contradiction
    simp [this]
  cases htext with
  | @operator c _ hop =>
    obtain ⟨bs, henc⟩ := exists_encode_of_byte? hb
    have hall : ∀ o ∈ Kind.operators, o.2 ≠ .comment := by decide
    obtain ⟨htake, hdrop⟩ := hstay (hall (c, k) hop)
    rw [htake, hdrop, List.append_nil]
    exact read?_operator passed henc hop rest
  | divide =>
    obtain ⟨bs, henc⟩ := exists_encode_of_byte? hb
    have hnext := Kind.head?_ne_slash_of_divide hrest
    obtain ⟨htake, hdrop⟩ := hstay (by decide)
    rw [htake, hdrop, List.append_nil]
    exact read?_divide passed henc hnext
  | identifier hc hcs =>
    obtain ⟨bs, henc⟩ := exists_encode_of_byte? hb
    obtain ⟨htake, hdrop⟩ := hstay (by decide)
    rw [htake, hdrop, List.append_nil]
    exact read?_identifier passed henc hc hcs hrest
  | number hc hcs =>
    obtain ⟨bs, henc⟩ := exists_encode_of_byte? hb
    obtain ⟨htake, hdrop⟩ := hstay (by decide)
    rw [htake, hdrop, List.append_nil]
    exact read?_number passed henc hc hcs hrest
  | @quote body hbody =>
    obtain ⟨bs, henc⟩ := exists_encode_of_byte? hb
    obtain ⟨htake, hdrop⟩ := hstay (by decide)
    have htext : '"' :: (body ++ ['"']) ++ rest = '"' :: (body ++ '"' :: rest) := by simp
    rw [htake, hdrop, List.append_nil, htext]
    exact read?_quote henc hbody passed rest
  | comment hbody =>
    obtain ⟨bs, henc⟩ := exists_encode_of_byte? hb
    exact read?_comment henc hbody (Kind.isLineEnd_of_comment hrest) passed

/-! ## §3 Calls -/

/-- A scanner that has passed some characters and has not failed. -/
def scanning (passed ahead : List Char) (mark : Cursor) : Scanner :=
  ⟨between passed ahead, mark, none⟩

@[simp] theorem cursor_scanning (passed ahead : List Char) (mark : Cursor) :
    (scanning passed ahead mark).cursor = between passed ahead := rfl

@[simp] theorem source_scanning (passed ahead : List Char) (mark : Cursor) :
    (scanning passed ahead mark).source = String.ofList (passed ++ ahead) :=
  source_between passed ahead

/-- The token of a kind that stands behind some characters. -/
def tokenBehind (passed : List Char) (k : Kind) (text : List Char) : Token :=
  ⟨k, String.ofList text, (Text.encode passed).length⟩

theorem blank_append {gap gap' : List Char} (h : ∀ c ∈ gap, CharClass.isBlank c = true)
    (h' : ∀ c ∈ gap', CharClass.isBlank c = true) :
    ∀ c ∈ gap ++ gap', CharClass.isBlank c = true := by
  intro c hc
  rcases List.mem_append.mp hc with hc | hc
  · exact h c hc
  · exact h' c hc

/-- The call that finds a reading at a cursor. -/
def Reading.step (mark : Cursor) : Reading → Step
  | .token t after => ⟨.token t, some (.token t), ⟨after, mark, none⟩⟩
  | .error e => ⟨.failed e, some (.failed e), ⟨mark, mark, some e⟩⟩

section
variable {gap : List Char} (hgap : ∀ c ∈ gap, CharClass.isBlank c = true)
include hgap

theorem eatWhile_isBlank (passed : List Char) {ahead : List Char}
    (hahead : ∀ c ∈ ahead.head?, CharClass.isBlank c = false) :
    (between passed (gap ++ ahead)).eatWhile ByteClass.isBlank = between (passed ++ gap) ahead :=
  eatWhile_between CharClass.isBlank_agree hgap hahead passed

theorem next_blank (passed : List Char) (mark : Cursor) :
    (scanning passed gap mark).next =
      ⟨.endOfInput, some (.endOfInput (Text.encode (passed ++ gap)).length),
        scanning (passed ++ gap) [] (between (passed ++ gap) [])⟩ := by
  have hnone : ∀ c ∈ ([] : List Char).head?, CharClass.isBlank c = false := by simp
  have hskip := eatWhile_isBlank hgap passed hnone
  rw [List.append_nil] at hskip
  simp only [next, step?, scanning, hskip, byte?_between_nil, position_between, Option.getD_some]

/-- Behind blanks, a reading of what the next character begins is the whole call. -/
theorem next_of_read? (passed : List Char) (mark : Cursor) {c : Char} {cs : List Char}
    (hc : CharClass.isBlank c = false) {reading : Reading}
    (hread : ∀ b, (between (passed ++ gap) (c :: cs)).byte? = some b →
      read? (between (passed ++ gap) (c :: cs)) b = some reading) :
    (scanning passed (gap ++ c :: cs) mark).next =
      reading.step (between (passed ++ gap) (c :: cs)) := by
  obtain ⟨b, bs, henc, _⟩ := Text.utf8EncodeChar_shape c
  have hstop : ∀ d ∈ (c :: cs).head?, CharClass.isBlank d = false := by simpa using hc
  have hb := byte?_between_cons henc (passed ++ gap) cs
  simp only [next, step?, scanning, eatWhile_isBlank hgap passed hstop, hb, hread b hb,
    Option.map_some, Option.getD_some]
  cases reading <;> rfl

/-- A token of the grammar: the call gives it, with the scan going on behind it. -/
theorem next_token (passed : List Char) (mark : Cursor) {k : Kind} {text rest : List Char}
    (htext : Spelling k text) (hrest : ∀ c ∈ rest.head?, k.goesOn c = false) :
    (scanning passed (gap ++ (text ++ rest)) mark).next =
      ⟨.token (tokenBehind (passed ++ gap) k text),
        some (.token (tokenBehind (passed ++ gap) k text)),
        scanning (passed ++ gap ++ text ++ rest.take k.trailing) (rest.drop k.trailing)
          (between (passed ++ gap) (text ++ rest))⟩ := by
  obtain ⟨c, cs, rfl⟩ := List.exists_cons_of_ne_nil htext.ne_nil
  have hread := fun b hb => read?_spelling htext hrest (passed ++ gap) (b := b) hb
  exact next_of_read? hgap passed mark htext.head_not_blank hread

/-- A character that starts no token: the call fails in front of it. -/
theorem next_foreign (passed : List Char) (mark : Cursor) {c : Char}
    (hc : CharClass.isForeign c = true) (rest : List Char) :
    (scanning passed (gap ++ c :: rest) mark).next =
      let e : ScanError := .unexpected (Text.encode (passed ++ gap)).length c
      let stop := between (passed ++ gap) (c :: rest)
      ⟨.failed e, some (.failed e), ⟨stop, stop, some e⟩⟩ := by
  have hblank := CharClass.not_blank_of_foreign hc
  have hread : ∀ b, (between (passed ++ gap) (c :: rest)).byte? = some b →
      read? (between (passed ++ gap) (c :: rest)) b =
        some (.error (.unexpected (Text.encode (passed ++ gap)).length c)) := by
    intro b hb
    obtain ⟨bs, henc⟩ := exists_encode_of_byte? hb
    exact read?_foreign henc hc (passed ++ gap) rest
  exact next_of_read? hgap passed mark hblank hread

/-- A quote with no other behind it: the call fails in front of it. -/
theorem next_openQuote (passed : List Char) (mark : Cursor) {rest : List Char}
    (hrest : '"' ∉ rest) :
    (scanning passed (gap ++ '"' :: rest) mark).next =
      let e : ScanError := .openQuote (Text.encode (passed ++ gap)).length
      let stop := between (passed ++ gap) ('"' :: rest)
      ⟨.failed e, some (.failed e), ⟨stop, stop, some e⟩⟩ := by
  have hread : ∀ b, (between (passed ++ gap) ('"' :: rest)).byte? = some b →
      read? (between (passed ++ gap) ('"' :: rest)) b =
        some (.error (.openQuote (Text.encode (passed ++ gap)).length)) := by
    intro b hb
    obtain ⟨bs, henc⟩ := exists_encode_of_byte? hb
    exact read?_openQuote henc hrest (passed ++ gap)
  exact next_of_read? hgap passed mark (by decide) hread

end

end Lexeme.Scanner
