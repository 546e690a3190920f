/-
Lexeme.Proofs.Cursor.Checked — moving, searching and cutting by offsets, with nothing taken for
granted.

A cursor keeps the bytes ahead of it, so none of its moves can leave the text.
Worked by offsets into the whole text, each of them takes a slice of it, and a
slice can be asked for that is not there: its ends may be out of order, out of
the text, or inside a character. Here the moves are made by offsets and are
refused where a slice would be, or where a difference would be negative. While
the position is in the text (`InText`) none of them is, and each does what the
cursor does.

  §1 Slices  — bytes between two offsets, and differences of offsets.
  §2 Moves   — advancing, eating, searching and cutting by offsets.
  §3 Laws    — in the text, nothing is refused.
-/
import Lexeme.Proofs.Cursor.Between

namespace Lexeme

/-! ## §1 Slices -/

/-- The difference of two offsets, refused below zero. -/
def checkedSub? (a b : Nat) : Option Nat :=
  if b ≤ a then some (a - b) else none

namespace Cursor

/-- The bytes between two offsets, which must be in order and in the text. -/
def byteSlice? (c : Cursor) (start stop : Nat) : Option (List UInt8) :=
  if start ≤ stop ∧ stop ≤ c.size then
    some (((Text.bytes c.source).drop start).take (stop - start))
  else none

/-! ## §2 Moves -/

/-- Passes the bytes of a slice that begins at the position and has `n` bytes, or all that are
left. -/
def checkedAdvanceBy? (c : Cursor) (n : Nat) : Option Cursor :=
  (c.byteSlice? c.position (min (c.position + n) c.size)).map fun passed =>
    c.advanceBy passed.length

/-- Passes bytes one by one as long as they are those listed and satisfy `p`. -/
def checkedEatFrom? (p : UInt8 → Bool) : List UInt8 → Cursor → Option Cursor
  | [], c => some c
  | b :: bs, c => if p b then (c.checkedAdvanceBy? 1).bind (checkedEatFrom? p bs) else some c

/-- Passes bytes one by one as long as they satisfy `p`. -/
def checkedEatWhile? (c : Cursor) (p : UInt8 → Bool) : Option Cursor :=
  checkedEatFrom? p c.ahead c

/-- Searches a slice that begins `skip` bytes from the position, or at the end. What is found there
is counted from the position again. -/
def checkedFind? (c : Cursor) (p : UInt8 → Bool) (skip : Nat) : Option (Option Nat) :=
  let start := min (c.position + skip) c.size
  (c.byteSlice? start c.size).bind fun rest =>
    match rest.findIdx? p with
    | none => some none
    | some i => (checkedSub? (i + start) c.position).map some

/-- The character that the slice from the position to the end begins with: NUL if it is empty. -/
def checkedChar? (c : Cursor) : Option Char :=
  (c.slice? c.position c.size).map fun rest => rest.toList.head?.getD '\x00'

/-! ## §3 Laws -/

/-- The position is in the text. -/
def InText (c : Cursor) : Prop :=
  c.position ≤ c.size

theorem length_ahead {c : Cursor} : c.ahead.length = c.size - c.position := by
  rw [c.ahead_eq, List.length_drop, Text.length_bytes]
  rfl

theorem byteSlice?_of_le {c : Cursor} {start stop : Nat} (hstart : start ≤ stop)
    (hstop : stop ≤ c.size) :
    c.byteSlice? start stop = some (((Text.bytes c.source).drop start).take (stop - start)) :=
  if_pos ⟨hstart, hstop⟩

theorem InText.advanceBy {c : Cursor} (h : c.InText) (n : Nat) : (c.advanceBy n).InText := by
  have hlen := length_ahead (c := c)
  have hsize : (c.advanceBy n).size = c.size := by simp [size]
  unfold InText at h ⊢
  rw [position_advanceBy, hsize]
  omega

theorem inText_moves (source : String) (ms : List Move) : ((ofString source).moves ms).InText := by
  obtain ⟨n, hn⟩ := reaches_of_moves (ofString source) ms
  have hstart : (ofString source).InText := Nat.zero_le _
  rw [hn]
  exact hstart.advanceBy n

theorem InText.checkedAdvanceBy?_eq {c : Cursor} (h : c.InText) (n : Nat) :
    c.checkedAdvanceBy? n = some (c.advanceBy n) := by
  have hlen := length_ahead (c := c)
  unfold InText at h
  rw [checkedAdvanceBy?, byteSlice?_of_le (by omega) (Nat.min_le_right _ _), ← c.ahead_eq,
    Option.map_some, List.length_take]
  congr 1
  rcases Nat.le_total n c.ahead.length with hle | hle
  · congr 1
    omega
  · rw [advanceBy_of_length_le hle]
    congr 1
    omega

theorem InText.checkedEatFrom?_eq {c : Cursor} (h : c.InText) (p : UInt8 → Bool)
    (bs : List UInt8) : checkedEatFrom? p bs c = some (eatFrom p bs c) := by
  induction bs generalizing c with
  | nil => rfl
  | cons b bs ih =>
    rw [checkedEatFrom?, eatFrom]
    split
    · rw [h.checkedAdvanceBy?_eq, Option.bind_some, ih (h.advanceBy 1), ← advance_eq_advanceBy]
    · rfl

theorem InText.checkedEatWhile?_eq {c : Cursor} (h : c.InText) (p : UInt8 → Bool) :
    c.checkedEatWhile? p = some (c.eatWhile p) :=
  h.checkedEatFrom?_eq p c.ahead

/-- Searching from the end on finds nothing, so what is found has been looked for at `skip` bytes
from the position, and is no nearer to the start of the text than the position. -/
theorem InText.checkedFind?_eq {c : Cursor} (h : c.InText) (p : UInt8 → Bool) (skip : Nat) :
    c.checkedFind? p skip = some (c.find? p skip) := by
  have hlen := length_ahead (c := c)
  have hbytes : (Text.bytes c.source).length = c.size := Text.length_bytes c.source
  unfold InText at h
  have hslice (start : Nat) (hstart : start ≤ c.size) :
      c.byteSlice? start c.size = some ((Text.bytes c.source).drop start) := by
    rw [byteSlice?_of_le hstart (Nat.le_refl _), List.take_of_length_le (by simp [hbytes])]
  rw [checkedFind?, find?, hslice _ (Nat.min_le_right _ _), Option.bind_some]
  rcases Nat.le_total (c.position + skip) c.size with hle | hle
  · have hrest : (Text.bytes c.source).drop (c.position + skip) = c.ahead.drop skip := by
      rw [c.ahead_eq, List.drop_drop]
    rw [Nat.min_eq_left hle, hrest]
    cases (c.ahead.drop skip).findIdx? p with
    | none => rfl
    | some i =>
      have hsub : i + (c.position + skip) - c.position = i + skip := by omega
      simp only [checkedSub?, if_pos (by omega : c.position ≤ i + (c.position + skip)), hsub,
        Option.map_some]
  · have hnone : c.ahead.drop skip = [] := List.drop_eq_nil_of_le (by omega)
    have hend : (Text.bytes c.source).drop c.size = [] :=
      List.drop_eq_nil_of_le (Nat.le_of_eq hbytes)
    rw [Nat.min_eq_right hle, hend, hnone]
    rfl

/-- Whether a cursor is on a boundary can be seen from the byte ahead of it. -/
theorem InText.isBoundary_position {c d : Cursor} (h : d.InText) (hsource : c.source = d.source) :
    c.isBoundary d.position = d.isOnBoundary := by
  have hlen := length_ahead (c := d)
  have hsize : c.size = d.size := by rw [size, size, hsource]
  unfold InText at h
  rw [isBoundary, isOnBoundary, hsource, ← d.ahead_eq, hsize]
  cases hahead : d.ahead with
  | nil =>
    rw [hahead, List.length_nil] at hlen
    simp
    omega
  | cons b bs => rfl

/-- Cutting by offsets cuts what is cut between two cursors. -/
theorem InText.sliceFrom?_eq {c mark : Cursor} (h : c.InText) (hmark : mark.InText)
    (hsource : mark.source = c.source) : c.sliceFrom? mark.position = c.since? mark := by
  rw [sliceFrom?, slice?, since?, hmark.isBoundary_position hsource.symm,
    h.isBoundary_position rfl, ← hsource, ← mark.ahead_eq]

/-- Between two characters, the rest of the text can be cut off and begins with the second. -/
theorem checkedChar?_between (passed : List Char) (c : Char) (ahead : List Char) :
    (between passed (c :: ahead)).checkedChar? = some c := by
  have hcut := slice?_ofString passed (c :: ahead) []
  simp only [List.append_nil] at hcut
  have hslice : (between passed (c :: ahead)).slice? (Text.encode passed).length
      (Text.encode (passed ++ c :: ahead)).length = some (String.ofList (c :: ahead)) := by
    unfold slice? isBoundary size at hcut ⊢
    rwa [source_between]
  have hsize : (between passed (c :: ahead)).size =
      (Text.encode (passed ++ c :: ahead)).length := by
    rw [size, source_between, Text.utf8ByteSize_ofList]
  rw [checkedChar?, position_between, hsize, hslice]
  simp

end Cursor
end Lexeme
