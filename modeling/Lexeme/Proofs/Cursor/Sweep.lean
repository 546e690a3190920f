/-
Lexeme.Proofs.Cursor.Sweep — many bytes in one move.

A cursor passes bytes one after the other, and each byte is told from those ahead
of it. A move over many bytes can also be made at one go: its end is cut off at the
end of the text, the bytes before it are looked at by their offsets in the whole
text, and only then is the position set. `sweep` is that move. In the text the two
come to the same cursor (`InText.advanceBy_eq_sweep`), since whether a byte breaks a
line does not depend on the move it is passed in. So moves add up wherever they are
split, be it between CR and LF, inside a character or behind the end; and a loop that
passes one byte a round (`Eats`) is a single move over the longest front of the bytes
ahead that satisfies its test.

  §1 Sweeps    — a move by offsets into the whole text.
  §2 Agreement — a sweep is as many advances as it has bytes.
  §3 Eating    — the loop, its rounds, and the longest front.
-/
import Lexeme.Proofs.Cursor.Checked
import Lexeme.Proofs.Cursor.Location
import Lexeme.Proofs.Cursor.Place

namespace Lexeme

/-! ## §1 Sweeps -/

/-- The place behind the byte at an offset of a text. -/
def Place.pass (bs : List UInt8) (p : Place) (offset : Nat) : Place :=
  if Text.breakAt bs offset then ⟨p.line + 1, 1⟩
  else if Text.beginsAt bs offset then ⟨p.line, p.column + 1⟩
  else p

namespace Cursor

/-- Passes `n` bytes, or all that are left, as one slice of the text. -/
def sweep (c : Cursor) (n : Nat) : Cursor :=
  let bs := Text.bytes c.source
  let stop := min (c.position + n) c.size
  let place := (List.range' c.position (stop - c.position)).foldl (Place.pass bs) c.place
  { source := c.source
    position := stop
    line := place.line
    column := place.column
    ahead := bs.drop stop
    ahead_eq := rfl }

theorem position_sweep (c : Cursor) (n : Nat) :
    (c.sweep n).position = min (c.position + n) c.size := rfl

theorem place_sweep (c : Cursor) (n : Nat) :
    (c.sweep n).place =
      (List.range' c.position (min (c.position + n) c.size - c.position)).foldl
        (Place.pass (Text.bytes c.source)) c.place := rfl

/-- There is nothing to a cursor but its text, its position and its place. -/
theorem eq_of_place {c d : Cursor} (hsource : c.source = d.source)
    (hposition : c.position = d.position) (hplace : c.place = d.place) : c = d := by
  obtain ⟨hline, hcolumn⟩ := Place.mk.inj hplace
  have hahead : c.ahead = d.ahead := by rw [c.ahead_eq, d.ahead_eq, hsource, hposition]
  cases c
  cases d
  simp_all

/-! ## §2 Agreement -/

/-- The byte ahead, and the one behind it, are those at their offsets in the text. -/
theorem place_advance_eq_pass {c : Cursor} (h : c.isAtEnd = false) :
    c.advance.place = c.place.pass (Text.bytes c.source) c.position := by
  cases hahead : c.ahead with
  | nil => simp [isAtEnd, hahead] at h
  | cons b rest =>
    rw [place_advance hahead, Place.pass, ← isBreak_eq_breakAt hahead, beginsAt_position hahead]
    cases Text.isContinuation b <;> rfl

theorem isAtEnd_iff_length {c : Cursor} : c.isAtEnd = true ↔ c.size - c.position = 0 := by
  rw [isAtEnd, List.isEmpty_iff, ← List.length_eq_zero_iff, length_ahead]

theorem sweep_of_isAtEnd {c : Cursor} (hin : c.InText) (h : c.isAtEnd = true) (n : Nat) :
    c.sweep n = c := by
  have hend := isAtEnd_iff_length.mp h
  have hstop : min (c.position + n) c.size = c.position := by
    unfold InText at hin
    omega
  refine eq_of_place rfl (by rw [position_sweep, hstop]) ?_
  rw [place_sweep, hstop, Nat.sub_self]
  rfl

/-- The first byte of a sweep may be passed before it. -/
theorem sweep_succ {c : Cursor} (h : c.isAtEnd = false) (n : Nat) :
    c.sweep (n + 1) = c.advance.sweep n := by
  have hpos := position_advance c h
  have hsize : c.advance.size = c.size := by rw [size, size, source_advance]
  have hleft : 0 < c.size - c.position := by
    rw [Nat.pos_iff_ne_zero, Ne, ← isAtEnd_iff_length, h]
    exact Bool.false_ne_true
  have hcount : min (c.position + (n + 1)) c.size - c.position =
      (min (c.position + 1 + n) c.size - (c.position + 1)) + 1 := by omega
  refine eq_of_place (source_advance c).symm ?_ ?_
  · rw [position_sweep, position_sweep, hpos, hsize]
    omega
  · rw [place_sweep, place_sweep, hpos, hsize, source_advance, hcount, List.range'_succ,
      List.foldl_cons, place_advance_eq_pass h]

/-- Passing bytes one by one comes to the same as passing them at one go. -/
theorem InText.advanceBy_eq_sweep {c : Cursor} (h : c.InText) (n : Nat) :
    c.advanceBy n = c.sweep n := by
  induction n generalizing c with
  | zero =>
    have hstop : min (c.position + 0) c.size = c.position := Nat.min_eq_left h
    refine eq_of_place rfl (by rw [position_sweep, hstop]; rfl) ?_
    rw [place_sweep, hstop, Nat.sub_self]
    rfl
  | succ n ih =>
    have hnext : c.advance.InText := by
      rw [advance_eq_advanceBy]
      exact h.advanceBy 1
    rw [Cursor.advanceBy]
    split
    · rename_i hend
      exact (sweep_of_isAtEnd h hend (n + 1)).symm
    · rename_i hmore
      rw [ih hnext, sweep_succ (by simpa using hmore)]

/-! ## §3 Eating -/

/-- The loop that passes one byte a round, as long as the byte at the cursor satisfies `p`: it
takes so many rounds from one cursor to another. -/
inductive Eats (p : UInt8 → Bool) : Nat → Cursor → Cursor → Prop
  | done {c : Cursor} (h : c.byte?.any p = false) : Eats p 0 c c
  | again {n : Nat} {c d : Cursor} (h : c.byte?.any p = true) (hrest : Eats p n (c.sweep 1) d) :
    Eats p (n + 1) c d

/-- The first `k` bytes satisfy `p`, and so do no more of them. -/
structure LongestFront (p : UInt8 → Bool) (bs : List UInt8) (k : Nat) : Prop where
  le_length : k ≤ bs.length
  holds : ∀ b ∈ bs.take k, p b = true
  longest : ∀ j ≤ bs.length, (∀ b ∈ bs.take j, p b = true) → j ≤ k

theorem longestFront_takeWhile (p : UInt8 → Bool) (bs : List UInt8) :
    LongestFront p bs (bs.takeWhile p).length where
  le_length := (List.takeWhile_sublist p).length_le
  holds := by
    have hfront : bs.take (bs.takeWhile p).length = bs.takeWhile p :=
      (List.prefix_iff_eq_take.mp (List.takeWhile_prefix p)).symm
    rw [hfront]
    exact List.all_eq_true.mp List.all_takeWhile
  longest := by
    intro j hj hall
    have hsplit : bs.takeWhile p = bs.take j ++ (bs.drop j).takeWhile p := by
      rw [← List.takeWhile_append_of_pos hall, List.take_append_drop]
    rw [hsplit, List.length_append, List.length_take]
    omega

theorem byte?_eq_head? (c : Cursor) : c.byte? = c.ahead.head? := by
  rw [byte?, peek?, List.head?_eq_getElem?]

/-- Each byte that is eaten takes a round, and the byte that stops the loop takes none. -/
theorem InText.eats_eatFrom {p : UInt8 → Bool} (bs : List UInt8) {c : Cursor} (h : c.InText)
    (hahead : c.ahead = bs) : Eats p (bs.takeWhile p).length c (eatFrom p bs c) := by
  induction bs generalizing c with
  | nil => exact .done (by rw [byte?_eq_head?, hahead]; rfl)
  | cons b bs ih =>
    have hbyte : c.byte?.any p = p b := by rw [byte?_eq_head?, hahead]; rfl
    rw [eatFrom]
    cases hb : p b with
    | false =>
      simp only [List.takeWhile_cons, hb, Bool.false_eq_true, if_false, List.length_nil]
      exact .done (hbyte.trans hb)
    | true =>
      have hstep : c.advance = c.sweep 1 := by
        rw [advance_eq_advanceBy, h.advanceBy_eq_sweep]
      have hnext : (c.sweep 1).InText := h.advanceBy_eq_sweep 1 ▸ h.advanceBy 1
      have hrest : (c.sweep 1).ahead = bs := by rw [← hstep, ahead_advance, hahead]; rfl
      simp only [List.takeWhile_cons, hb, if_true, List.length_cons, hstep]
      exact .again (hbyte.trans hb) (ih hnext hrest)

theorem InText.eats_eatWhile {c : Cursor} (h : c.InText) (p : UInt8 → Bool) :
    Eats p (c.ahead.takeWhile p).length c (c.eatWhile p) :=
  h.eats_eatFrom c.ahead rfl

/-- A loop that has come to its end is on no byte that would keep it going. -/
theorem Eats.stops {p : UInt8 → Bool} {n : Nat} {c d : Cursor} (h : Eats p n c d) :
    d.byte?.any p = false := by
  induction h with
  | done h => exact h
  | again _ _ ih => exact ih

/-- **Moves add up, and eating is one move.** Wherever a cursor has got to, two moves one behind
the other come to text, position, line and column of the one move by both distances, the end of the
text included; it makes no difference whether a move is made byte by byte or at one go. And
for every test, the loop that eats byte by byte takes as many rounds as the longest front of the
bytes ahead that satisfies the test has bytes, comes to the same as one move over this front,
and so ends on a byte that fails the test or at the end. -/
theorem moves_add_up (source : String) (ms : List Move) (m n : Nat) (p : UInt8 → Bool) :
    let c := (ofString source).moves ms
    c.advanceBy n = c.sweep n ∧
      (c.advanceBy m).advanceBy n = c.advanceBy (m + n) ∧
      (c.sweep m).sweep n = c.sweep (m + n) ∧
      ∃ k, LongestFront p c.ahead k ∧ Eats p k c (c.eatWhile p) ∧
        c.eatWhile p = c.advanceBy k ∧
        ((c.eatWhile p).isAtEnd = true ∨ ∃ b, (c.eatWhile p).byte? = some b ∧ p b = false) := by
  intro c
  have hin : c.InText := inText_moves source ms
  have heats := hin.eats_eatWhile p
  refine ⟨hin.advanceBy_eq_sweep n, advanceBy_advanceBy c m n, ?_,
    _, longestFront_takeWhile p c.ahead, heats, eatWhile_eq_advanceBy c p, ?_⟩
  · rw [← hin.advanceBy_eq_sweep m, ← (hin.advanceBy m).advanceBy_eq_sweep n,
      advanceBy_advanceBy, hin.advanceBy_eq_sweep]
  · have hstop := heats.stops
    rw [byte?_eq_head?] at hstop ⊢
    unfold isAtEnd
    cases hahead : (c.eatWhile p).ahead with
    | nil => exact .inl rfl
    | cons b rest =>
      rw [hahead] at hstop
      exact .inr ⟨b, rfl, hstop⟩

/-- Moves that are split between CR and LF, and inside a character. -/
example :
    let c := ofString "\r\né"
    (c.sweep 1).place = ⟨1, 2⟩ ∧ ((c.sweep 1).sweep 2).place = ⟨2, 2⟩ ∧
      (((c.sweep 1).sweep 2).sweep 9).position = 4 := by
  decide +kernel

end Cursor
end Lexeme
