/-
Lexeme.Cursor — a reading position in a text.

A cursor moves forward over the bytes of its text and counts lines and columns
on the way. It may stop anywhere, also inside a character; reading characters
or cutting pieces out is refused there.

  §1 Position    — the type and the start of a text.
  §2 Looking     — bytes and characters at and after the position.
  §3 Moving      — one byte, a number of bytes, all bytes of a class.
  §4 Searching   — the distance to the next byte of a kind.
  §5 Cutting     — pieces of the text between two character boundaries.
  §6 Laws        — moving by `n` bytes drops `n` bytes and no others
                   (`ahead_advanceBy`, `position_advanceBy`), in one go or in
                   two (`advanceBy_advanceBy`).
-/
import Lexeme.Text.ByteClass
import Lexeme.Text.Utf8

namespace Lexeme

/-! ## §1 Position -/

/-- A position in a text. Lines and columns count from one, and columns count characters. -/
structure Cursor where
  /-- The whole text. -/
  source : String
  /-- The number of bytes passed. -/
  position : Nat
  line : Nat
  column : Nat
  /-- The bytes not passed yet. -/
  ahead : List UInt8
  ahead_eq : ahead = (Text.bytes source).drop position
deriving DecidableEq, Repr

namespace Cursor

/-- The start of a text. -/
def ofString (source : String) : Cursor where
  source := source
  position := 0
  line := 1
  column := 1
  ahead := Text.bytes source
  ahead_eq := rfl

instance : Inhabited Cursor := ⟨ofString ""⟩

/-- The length of the whole text in bytes. -/
def size (c : Cursor) : Nat :=
  c.source.utf8ByteSize

/-- Whether the whole text is empty. -/
def isEmpty (c : Cursor) : Bool :=
  c.size == 0

/-- Whether every byte has been passed. -/
def isAtEnd (c : Cursor) : Bool :=
  c.ahead.isEmpty

/-! ## §2 Looking -/

/-- The byte at a distance from the position. -/
def peek? (c : Cursor) (distance : Nat) : Option UInt8 :=
  c.ahead[distance]?

/-- The byte at the position. -/
def byte? (c : Cursor) : Option UInt8 :=
  c.peek? 0

/-- Whether the position is on a character boundary. -/
def isOnBoundary (c : Cursor) : Bool :=
  c.ahead.head?.all fun b => !Text.isContinuation b

/-- The character at the position: NUL at the end, refused inside a character. -/
def char? (c : Cursor) : Option Char :=
  match c.ahead with
  | [] => some '\x00'
  | b :: rest => do
    let first ← Text.ofBytes? (b :: rest.takeWhile Text.isContinuation)
    first.toList.head?

/-! ## §3 Moving -/

/-- Whether passing byte `b` with `rest` behind it ends a line: LF does, and CR does unless LF
follows, which leaves the break to the LF. -/
def isBreak (b : UInt8) (rest : List UInt8) : Bool :=
  b == 0x0A || (b == 0x0D && rest.head? != some 0x0A)

/-- Passes one byte; at the end the cursor stays. -/
def advance (c : Cursor) : Cursor :=
  match h : c.ahead with
  | [] => c
  | b :: rest =>
    { source := c.source
      position := c.position + 1
      line := if isBreak b rest then c.line + 1 else c.line
      column :=
        if isBreak b rest then 1
        else if Text.isContinuation b then c.column
        else c.column + 1
      ahead := rest
      ahead_eq := by
        rw [← List.tail_drop, ← c.ahead_eq, h, List.tail_cons] }

/-- Passes `n` bytes, or all that are left. -/
def advanceBy (c : Cursor) : Nat → Cursor
  | 0 => c
  | n + 1 => if c.isAtEnd then c else c.advance.advanceBy n

/-- Passes bytes as long as they are those listed and satisfy `p`. -/
def eatFrom (p : UInt8 → Bool) : List UInt8 → Cursor → Cursor
  | [], c => c
  | b :: bs, c => if p b then eatFrom p bs c.advance else c

/-- Passes bytes as long as they satisfy `p`. -/
def eatWhile (c : Cursor) (p : UInt8 → Bool) : Cursor :=
  eatFrom p c.ahead c

/-! ## §4 Searching -/

/-- The distance to the first byte that satisfies `p`, `skip` bytes from here or farther. -/
def find? (c : Cursor) (p : UInt8 → Bool) (skip : Nat) : Option Nat :=
  ((c.ahead.drop skip).findIdx? p).map (· + skip)

/-- The distance to the next `needle`, `skip` bytes from here or farther. -/
def findByte? (c : Cursor) (needle : UInt8) (skip : Nat) : Option Nat :=
  c.find? (· == needle) skip

/-- The distance to the next CR or LF, `skip` bytes from here or farther. -/
def findLineEnd? (c : Cursor) (skip : Nat) : Option Nat :=
  c.find? ByteClass.isLineEnd skip

/-! ## §5 Cutting -/

/-- Whether a byte offset of the whole text is on a character boundary. -/
def isBoundary (c : Cursor) (offset : Nat) : Bool :=
  match (Text.bytes c.source).drop offset with
  | [] => offset == c.size
  | b :: _ => !Text.isContinuation b

/-- The piece of the text between two offsets, which must be in order and on boundaries. -/
def slice? (c : Cursor) (start stop : Nat) : Option String :=
  if start ≤ stop ∧ c.isBoundary start ∧ c.isBoundary stop then
    Text.ofBytes? (((Text.bytes c.source).drop start).take (stop - start))
  else none

/-- The piece of the text from an offset to the position. -/
def sliceFrom? (c : Cursor) (start : Nat) : Option String :=
  c.slice? start c.position

/-- The piece of the text from an earlier cursor to this one. It is what `sliceFrom?` gives for
the earlier position, without going through the text from its start. -/
def since? (c mark : Cursor) : Option String :=
  if mark.position ≤ c.position ∧ mark.isOnBoundary ∧ c.isOnBoundary then
    Text.ofBytes? (mark.ahead.take (c.position - mark.position))
  else none

/-! ## §6 Laws -/

@[simp] theorem source_advance (c : Cursor) : c.advance.source = c.source := by
  unfold advance
  split <;> rfl

@[simp] theorem ahead_advance (c : Cursor) : c.advance.ahead = c.ahead.tail := by
  unfold advance
  split <;> rename_i h <;> simp [h]

theorem position_advance (c : Cursor) (h : c.isAtEnd = false) :
    c.advance.position = c.position + 1 := by
  unfold advance
  split
  · rename_i hnil
    simp [isAtEnd, hnil] at h
  · rfl

/-- At the end of the text there is nowhere to go. -/
theorem advance_of_isAtEnd (c : Cursor) (h : c.isAtEnd = true) : c.advance = c := by
  unfold advance
  split
  · rfl
  · rename_i hcons
    simp [isAtEnd, hcons] at h

@[simp] theorem source_advanceBy (c : Cursor) (n : Nat) : (c.advanceBy n).source = c.source := by
  induction n generalizing c with
  | zero => rfl
  | succ n ih =>
    rw [advanceBy]
    split
    · rfl
    · rw [ih, source_advance]

@[simp] theorem ahead_advanceBy (c : Cursor) (n : Nat) :
    (c.advanceBy n).ahead = c.ahead.drop n := by
  induction n generalizing c with
  | zero => rfl
  | succ n ih =>
    rw [advanceBy]
    split
    · rename_i h
      have hnil : c.ahead = [] := List.isEmpty_iff.mp h
      simp [hnil]
    · rw [ih, ahead_advance, List.drop_tail]

theorem position_advanceBy (c : Cursor) (n : Nat) :
    (c.advanceBy n).position = c.position + min n c.ahead.length := by
  induction n generalizing c with
  | zero => simp [advanceBy]
  | succ n ih =>
    rw [advanceBy]
    split
    · rename_i h
      have hnil : c.ahead = [] := List.isEmpty_iff.mp h
      simp [hnil]
    · rename_i h
      have hpos : 0 < c.ahead.length := by
        cases hc : c.ahead with
        | nil => simp [isAtEnd, hc] at h
        | cons b bs => simp
      rw [ih, position_advance c (by simpa using h), ahead_advance, List.length_tail]
      omega

/-- Two moves are one move by both distances. -/
theorem advanceBy_advanceBy (c : Cursor) (m n : Nat) :
    (c.advanceBy m).advanceBy n = c.advanceBy (m + n) := by
  induction m generalizing c with
  | zero => rw [Nat.zero_add]; rfl
  | succ m ih =>
    rw [Nat.succ_add, advanceBy, advanceBy]
    split
    · rename_i h
      cases n with
      | zero => rfl
      | succ n => rw [advanceBy, if_pos h]
    · exact ih c.advance

end Cursor
end Lexeme
