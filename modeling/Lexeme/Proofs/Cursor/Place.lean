/-
Lexeme.Proofs.Cursor.Place — line and column, counted in characters.

A cursor counts byte by byte. Between two characters its line and column can be
read off the characters it has passed, one step for each (`place_between`):
a line break begins a line, and any other character takes a column, however
many bytes it has. Only a CR asks for what comes next, since one in front of
an LF leaves the line break to it.

  §1 Counting — a place, and the place behind more characters.
  §2 Steps    — what a character does to a place, and what a line end forgets.
  §3 Bytes    — the bytes of one character make one step.
-/
import Lexeme.Proofs.Cursor.Between

namespace Lexeme

/-! ## §1 Counting -/

/-- A line and a column. -/
structure Place where
  line : Nat
  column : Nat
deriving DecidableEq, Repr

namespace CharClass

/-- Whether a character ends a line where `ahead` follows: LF does, and CR does unless LF comes
next. -/
def isBreak (c : Char) (ahead : List Char) : Bool :=
  c == '\n' || (c == '\r' && !ahead.head?.any (· == '\n'))

theorem isBreak_of_not_lineEnd {c : Char} (hc : isLineEnd c = false) (ahead : List Char) :
    isBreak c ahead = false := by
  simp only [isLineEnd, Bool.or_eq_false_iff] at hc
  simp [isBreak, hc.1, hc.2]

end CharClass

namespace Place

/-- The place behind a character. -/
def step (p : Place) (c : Char) (ahead : List Char) : Place :=
  if CharClass.isBreak c ahead then ⟨p.line + 1, 1⟩ else ⟨p.line, p.column + 1⟩

/-- The place behind some characters that `ahead` follows. -/
def behind : Place → List Char → List Char → Place
  | p, [], _ => p
  | p, c :: passed, ahead => (p.step c (passed ++ ahead)).behind passed ahead

/-! ## §2 Steps -/

/-- Only a CR asks for what comes next. -/
theorem step_of_ne_cr (p : Place) {c : Char} (hc : c ≠ '\r') (ahead : List Char) :
    p.step c ahead = if c = '\n' then ⟨p.line + 1, 1⟩ else ⟨p.line, p.column + 1⟩ := by
  simp [step, CharClass.isBreak, hc]

/-- A CR without an LF behind it ends a line. -/
theorem step_cr_of_head? (p : Place) {ahead : List Char} (h : ahead.head? ≠ some '\n') :
    p.step '\r' ahead = ⟨p.line + 1, 1⟩ := by
  have hnone : ahead.head?.any (· == '\n') = false := by
    cases hhead : ahead.head? with
    | none => rfl
    | some c =>
      have hc : c ≠ '\n' := fun heq => h (heq ▸ hhead)
      simpa using hc
  simp [step, CharClass.isBreak, hnone]

theorem step_of_not_lineEnd (p : Place) {c : Char} (hc : CharClass.isLineEnd c = false)
    (ahead : List Char) : p.step c ahead = ⟨p.line, p.column + 1⟩ := by
  rw [step, CharClass.isBreak_of_not_lineEnd hc]
  rfl

theorem behind_append (p : Place) (xs ys ahead : List Char) :
    p.behind (xs ++ ys) ahead = (p.behind xs (ys ++ ahead)).behind ys ahead := by
  induction xs generalizing p with
  | nil => rfl
  | cons x xs ih =>
    show (p.step x (xs ++ ys ++ ahead)).behind (xs ++ ys) ahead =
      ((p.step x (xs ++ (ys ++ ahead))).behind xs (ys ++ ahead)).behind ys ahead
    rw [ih, List.append_assoc]

theorem behind_of_not_lineEnd (p : Place) {text : List Char}
    (h : ∀ c ∈ text, CharClass.isLineEnd c = false) (ahead : List Char) :
    p.behind text ahead = ⟨p.line, p.column + text.length⟩ := by
  induction text generalizing p with
  | nil => rfl
  | cons c text ih =>
    show (p.step c (text ++ ahead)).behind text ahead = _
    rw [step_of_not_lineEnd p (h c (by simp)), ih _ fun d hd => h d (by simp [hd]),
      List.length_cons, Nat.add_comm text.length, Nat.add_assoc]

/-- Behind a line end it makes no difference where in the line it came. -/
theorem behind_cons_lineEnd {p q : Place} (hline : p.line = q.line) {e : Char}
    (he : CharClass.isLineEnd e = true) (gap : List Char) {ahead : List Char}
    (h : ahead.head? ≠ some '\n') : p.behind (e :: gap) ahead = q.behind (e :: gap) ahead := by
  rw [CharClass.isLineEnd, Bool.or_eq_true, beq_iff_eq, beq_iff_eq] at he
  rcases he with rfl | rfl
  · by_cases hnext : (gap ++ ahead).head? = some '\n'
    · -- the line ends with the LF, and the CR has only taken a column
      cases gap with
      | nil => exact absurd hnext h
      | cons d gap =>
        obtain rfl : d = '\n' := by simpa using hnext
        show behind ⟨p.line + 1, 1⟩ gap ahead = behind ⟨q.line + 1, 1⟩ gap ahead
        rw [hline]
    · show (p.step '\r' (gap ++ ahead)).behind gap ahead =
        (q.step '\r' (gap ++ ahead)).behind gap ahead
      rw [step_cr_of_head? p hnext, step_cr_of_head? q hnext, hline]
  · show behind ⟨p.line + 1, 1⟩ gap ahead = behind ⟨q.line + 1, 1⟩ gap ahead
    rw [hline]

end Place

/-! ## §3 Bytes -/

namespace Cursor

/-- Where a cursor stands. -/
def place (c : Cursor) : Place :=
  ⟨c.line, c.column⟩

theorem place_advance {c : Cursor} {b : UInt8} {rest : List UInt8} (h : c.ahead = b :: rest) :
    c.advance.place =
      if isBreak b rest then ⟨c.line + 1, 1⟩
      else if Text.isContinuation b then c.place
      else ⟨c.line, c.column + 1⟩ := by
  rw [place, line_advance h, column_advance h]
  cases isBreak b rest <;> cases Text.isContinuation b <;> rfl

/-- Continuation bytes take no column and end no line. -/
theorem place_advanceBy_continuation {bs : List UInt8}
    (hbs : ∀ x ∈ bs, Text.isContinuation x = true) {c : Cursor} {rest : List UInt8}
    (h : c.ahead = bs ++ rest) : (c.advanceBy bs.length).place = c.place := by
  induction bs generalizing c with
  | nil => rfl
  | cons b bs ih =>
    have hcons : c.ahead = b :: (bs ++ rest) := h
    have hb := hbs b (by simp)
    have hbreak : isBreak b (bs ++ rest) = false := by
      have hrange := (Text.isContinuation_iff b).mp hb
      have hlf : (b == 0x0A) = false := CharClass.lineFeed_agree.byte b hrange.1
      have hcr : (b == 0x0D) = false := CharClass.carriageReturn_agree.byte b hrange.1
      simp [isBreak, hlf, hcr]
    have hahead : c.advance.ahead = bs ++ rest := by simp [hcons]
    rw [List.length_cons, Nat.add_comm, ← advanceBy_advanceBy, ← advance_eq_advanceBy,
      ih (fun x hx => hbs x (by simp [hx])) hahead, place_advance hcons, hbreak, hb]
    simp

/-- The bytes of a character take one step. -/
theorem place_advanceBy_encode {c : Cursor} {d : Char} {ahead : List Char}
    (h : c.ahead = Text.encode (d :: ahead)) :
    (c.advanceBy (Text.encode [d]).length).place = c.place.step d ahead := by
  obtain ⟨b, bs, henc, hb, hbs⟩ := Text.utf8EncodeChar_shape d
  have hahead : c.ahead = b :: (bs ++ Text.encode ahead) := by
    rw [h, Text.encode_cons, henc, List.cons_append]
  have hlength : (Text.encode [d]).length = 1 + bs.length := by
    simp [Text.encode_cons, henc, Nat.add_comm]
  -- only a CR looks ahead, and it is followed by the first byte of the next character
  have hbreak : isBreak b (bs ++ Text.encode ahead) = CharClass.isBreak d ahead := by
    have hlf : (b == 0x0A) = (d == '\n') := CharClass.lineFeed_agree.first henc
    have hcr : (b == 0x0D) = (d == '\r') := CharClass.carriageReturn_agree.first henc
    have hnext := CharClass.lineFeed_agree.any_head?_encode ahead
    by_cases hd : d = '\r'
    · subst hd
      rw [Text.utf8EncodeChar_of_ascii (by decide)] at henc
      obtain ⟨-, rfl⟩ := List.cons.inj henc
      rw [isBreak, CharClass.isBreak, hlf, hcr, ← hnext, List.nil_append]
      cases (Text.encode ahead).head? <;> simp [bne]
    · have hne : (d == '\r') = false := beq_eq_false_iff_ne.mpr hd
      simp [isBreak, CharClass.isBreak, hlf, hcr, hne]
  have hrest : c.advance.ahead = bs ++ Text.encode ahead := by simp [hahead]
  rw [hlength, ← advanceBy_advanceBy, ← advance_eq_advanceBy,
    place_advanceBy_continuation hbs hrest, place_advance hahead, hbreak, hb, Place.step]
  rfl

theorem place_advanceBy (passed ahead : List Char) {c : Cursor}
    (h : c.ahead = Text.encode (passed ++ ahead)) :
    (c.advanceBy (Text.encode passed).length).place = c.place.behind passed ahead := by
  induction passed generalizing c with
  | nil => rfl
  | cons d passed ih =>
    have hcons (cs : List Char) : Text.encode (d :: cs) = Text.encode [d] ++ Text.encode cs :=
      Text.encode_append [d] cs
    have hrest : (c.advanceBy (Text.encode [d]).length).ahead = Text.encode (passed ++ ahead) := by
      rw [ahead_advanceBy, h, List.cons_append, hcons (passed ++ ahead), List.drop_left]
    rw [hcons passed, List.length_append, ← advanceBy_advanceBy, ih hrest, place_advanceBy_encode h]
    rfl

/-- Where a cursor stands between two characters, line and column are counted in characters. -/
theorem place_between (passed ahead : List Char) :
    (between passed ahead).place = Place.behind ⟨1, 1⟩ passed ahead := by
  rw [between, place_advanceBy passed ahead (by simp)]
  rfl

end Cursor
end Lexeme
