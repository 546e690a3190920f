/-
Lexeme.Proofs.Cursor.Location — line and column as functions of an offset.

A cursor counts lines and columns while it moves, one byte after the other,
and looks one byte ahead to tell a lone CR from the CR of a CRLF. Here the
same numbers are read off the whole text at once, from an offset alone:
`lineAt` counts the line breaks before it, `columnAt` the characters begun
since the last of them. `located_of_reaches` says that a cursor agrees with
both wherever it stands, so no way of getting there can make a difference.

  §1 Counting   — `lineAt`, `columnAt`, and one more byte of each.
  §2 Bounds     — together they grow by one a byte at most.
  §3 Invariance — every cursor that moves lead to is `Located`.
-/
import Lexeme.Proofs.Cursor.Movement
import Lexeme.Proofs.Text.Encoding

namespace Lexeme

/-! ## §1 Counting -/

namespace Text

/-- Whether the byte at an offset ends a line: an LF does, and a CR with no LF behind it. -/
def breakAt (bs : List UInt8) (i : Nat) : Bool :=
  bs[i]? == some 0x0A || (bs[i]? == some 0x0D && bs[i + 1]? != some 0x0A)

/-- Whether a character begins at an offset. -/
def beginsAt (bs : List UInt8) (i : Nat) : Bool :=
  bs[i]?.any fun b => !isContinuation b

/-- The line of an offset: one more than the line breaks before it. -/
def lineAt (bs : List UInt8) (offset : Nat) : Nat :=
  1 + (List.range offset).countP (breakAt bs)

/-- The column of an offset: one more than the characters that begin before it and after the
last line break before it. -/
def columnAt (bs : List UInt8) (offset : Nat) : Nat :=
  1 + (List.range offset).countP fun i =>
    beginsAt bs i && decide (∀ j < offset, breakAt bs j = true → j < i)

@[simp] theorem lineAt_zero (bs : List UInt8) : lineAt bs 0 = 1 := rfl

@[simp] theorem columnAt_zero (bs : List UInt8) : columnAt bs 0 = 1 := rfl

theorem lineAt_succ (bs : List UInt8) (n : Nat) :
    lineAt bs (n + 1) = if breakAt bs n then lineAt bs n + 1 else lineAt bs n := by
  rw [lineAt, lineAt, List.range_succ, List.countP_append, List.countP_singleton]
  split <;> omega

/-- Behind a line break nothing is counted yet. -/
theorem columnAt_succ_of_break {bs : List UInt8} {n : Nat} (h : breakAt bs n = true) :
    columnAt bs (n + 1) = 1 := by
  have hnone : (List.range (n + 1)).countP (fun i =>
      beginsAt bs i && decide (∀ j < n + 1, breakAt bs j = true → j < i)) = 0 := by
    rw [List.countP_eq_zero]
    intro i hi hcount
    simp only [Bool.and_eq_true, decide_eq_true_eq] at hcount
    have := hcount.2 n (by omega) h
    have := List.mem_range.mp hi
    omega
  rw [columnAt, hnone]

/-- Any other byte adds itself to what was counted, if a character begins there. -/
theorem columnAt_succ_of_not_break {bs : List UInt8} {n : Nat} (h : breakAt bs n = false) :
    columnAt bs (n + 1) = if beginsAt bs n then columnAt bs n + 1 else columnAt bs n := by
  -- a bound of `n` or `n + 1` makes no difference, since byte `n` breaks no line
  have hbound : ∀ i, (∀ j < n + 1, breakAt bs j = true → j < i) ↔
      ∀ j < n, breakAt bs j = true → j < i := by
    intro i
    constructor
    · intro hall j hj
      exact hall j (by omega)
    · intro hall j hj hbreak
      have hne : j ≠ n := by
        rintro rfl
        simp [h] at hbreak
      exact hall j (by omega) hbreak
  have hlast : decide (∀ j < n, breakAt bs j = true → j < n) = true := by
    rw [decide_eq_true_iff]
    intro j hj _
    exact hj
  simp only [columnAt, hbound]
  rw [List.range_succ, List.countP_append, List.countP_singleton, hlast, Bool.and_true]
  split <;> omega

/-! ## §2 Bounds -/

theorem one_le_columnAt (bs : List UInt8) (n : Nat) : 1 ≤ columnAt bs n :=
  Nat.le_add_right 1 _

theorem one_le_lineAt (bs : List UInt8) (n : Nat) : 1 ≤ lineAt bs n :=
  Nat.le_add_right 1 _

/-- A byte begins a line or a column, never both. -/
theorem lineAt_add_columnAt_le (bs : List UInt8) (n : Nat) :
    lineAt bs n + columnAt bs n ≤ n + 2 := by
  induction n with
  | zero => simp
  | succ n ih =>
    rw [lineAt_succ]
    cases hbreak : breakAt bs n with
    | true =>
      rw [columnAt_succ_of_break hbreak]
      have := one_le_columnAt bs n
      simp only [if_true]
      omega
    | false =>
      rw [columnAt_succ_of_not_break hbreak]
      simp only [Bool.false_eq_true, if_false]
      split <;> omega

end Text

/-! ## §3 Invariance -/

namespace Cursor

/-- A cursor that stands somewhere in `source` and has line and column of that place. -/
structure Located (source : String) (c : Cursor) : Prop where
  source_eq : c.source = source
  position_le : c.position ≤ source.utf8ByteSize
  line_eq : c.line = Text.lineAt (Text.bytes source) c.position
  column_eq : c.column = Text.columnAt (Text.bytes source) c.position

theorem located_ofString (source : String) : Located source (ofString source) where
  source_eq := rfl
  position_le := Nat.zero_le _
  line_eq := rfl
  column_eq := rfl

theorem getElem?_ahead (c : Cursor) (i : Nat) :
    c.ahead[i]? = (Text.bytes c.source)[c.position + i]? := by
  rw [c.ahead_eq, List.getElem?_drop]

/-- Looking one byte ahead is enough to see the line break. -/
theorem isBreak_eq_breakAt {c : Cursor} {b : UInt8} {rest : List UInt8}
    (h : c.ahead = b :: rest) :
    isBreak b rest = Text.breakAt (Text.bytes c.source) c.position := by
  have hb : (Text.bytes c.source)[c.position]? = some b := by
    simpa [h] using (getElem?_ahead c 0).symm
  have hrest : (Text.bytes c.source)[c.position + 1]? = rest.head? := by
    simpa [h, List.head?_eq_getElem?] using (getElem?_ahead c 1).symm
  simp [isBreak, Text.breakAt, hb, hrest]

theorem beginsAt_position {c : Cursor} {b : UInt8} {rest : List UInt8} (h : c.ahead = b :: rest) :
    Text.beginsAt (Text.bytes c.source) c.position = !Text.isContinuation b := by
  have hb : (Text.bytes c.source)[c.position]? = some b := by
    simpa [h] using (getElem?_ahead c 0).symm
  simp [Text.beginsAt, hb]

theorem Located.advance {source : String} {c : Cursor} (h : Located source c) :
    Located source c.advance := by
  cases hahead : c.ahead with
  | nil =>
    rwa [advance_of_isAtEnd c (by simp [isAtEnd, hahead])]
  | cons b rest =>
    have hsrc := h.source_eq
    have hlt : c.position < source.utf8ByteSize := by
      have hlen := congrArg List.length c.ahead_eq
      rw [List.length_drop, Text.length_bytes, hahead, hsrc, List.length_cons] at hlen
      omega
    have hpos : c.advance.position = c.position + 1 :=
      position_advance c (by simp [isAtEnd, hahead])
    have hbreak := isBreak_eq_breakAt hahead
    have hbegins := beginsAt_position hahead
    rw [hsrc] at hbreak hbegins
    refine ⟨by rw [source_advance, hsrc], by omega, ?_, ?_⟩
    · rw [line_advance hahead, hpos, Text.lineAt_succ, ← hbreak, ← h.line_eq]
    · rw [column_advance hahead, hpos]
      cases hb : isBreak b rest with
      | true =>
        rw [Text.columnAt_succ_of_break (hbreak ▸ hb)]
        simp
      | false =>
        rw [Text.columnAt_succ_of_not_break (hbreak ▸ hb), hbegins, ← h.column_eq]
        cases Text.isContinuation b <;> simp

theorem Located.advanceBy {source : String} {c : Cursor} (h : Located source c) (n : Nat) :
    Located source (c.advanceBy n) := by
  induction n generalizing c with
  | zero => exact h
  | succ n ih =>
    rw [Cursor.advanceBy]
    split
    · exact h
    · exact ih h.advance

/-- Wherever a cursor gets, its line and column are those of the place. -/
theorem located_of_reaches {source : String} {c : Cursor} (h : (ofString source).Reaches c) :
    Located source c := by
  obtain ⟨n, rfl⟩ := h
  exact (located_ofString source).advanceBy n

theorem Located.line_add_column_le {source : String} {c : Cursor} (h : Located source c) :
    c.line + c.column ≤ c.position + 2 := by
  rw [h.line_eq, h.column_eq]
  exact Text.lineAt_add_columnAt_le _ _

end Cursor
end Lexeme
