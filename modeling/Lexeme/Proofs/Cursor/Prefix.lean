/-
Lexeme.Proofs.Cursor.Prefix — line and column of a place, from what is before it.

A cursor counts on its way, and looks one byte ahead to do so. Between two
characters its line and column can be told from what it has passed alone, with
every line break rewritten to LF: the line is one more than the LFs, and the column
one more than the characters behind the last of them (`place_between_eq`). Only
where an LF comes next could it be the second half of a line break that the CR
before it has begun.

  §1 Counting — line breaks, and what is behind the last of them.
  §2 Places   — pieces one behind the other, and the place behind them.
-/
import Lexeme.Proofs.Cursor.Place
import Lexeme.Proofs.Text.LineBreak
import Mathlib.Data.List.Induction

namespace Lexeme

/-! ## §1 Counting -/

namespace Text

/-- The number of line breaks: CR and LF together are one, and so is either of them alone. -/
def lineBreaks (cs : List Char) : Nat :=
  (withLF cs).count '\n'

/-- The characters behind the last line break. -/
def lastLine (cs : List Char) : List Char :=
  ((withLF cs).reverse.takeWhile (· != '\n')).reverse

theorem not_cr_mem_withLF (cs : List Char) : '\r' ∉ withLF cs := by
  fun_induction withLF cs with
  | case1 cs ih => simp [ih]
  | case2 cs _ ih => simp [ih]
  | case3 c cs _ hc ih => simp [ih, Ne.symm hc]
  | case4 => simp

end Text

/-! ## §2 Places -/

namespace Place

/-- Rewriting line breaks changes no place, unless an LF comes next. -/
theorem behind_withLF (p : Place) {cs ahead : List Char} (h : ahead.head? ≠ some '\n') :
    p.behind (Text.withLF cs) [] = p.behind cs ahead := by
  fun_induction Text.withLF cs generalizing p with
  | case1 cs ih => exact ih ⟨p.line + 1, 1⟩
  | case2 cs hcs ih =>
    have hnext : (cs ++ ahead).head? ≠ some '\n' := by
      cases cs with
      | nil => exact h
      | cons c cs =>
        intro heq
        obtain rfl : c = '\n' := by simpa using heq
        exact hcs cs rfl
    show behind ⟨p.line + 1, 1⟩ (Text.withLF cs) [] =
      (p.step '\r' (cs ++ ahead)).behind cs ahead
    rw [step_cr_of_head? p hnext]
    exact ih _
  | case3 c cs _ hc ih =>
    show (p.step c (Text.withLF cs ++ [])).behind (Text.withLF cs) [] =
      (p.step c (cs ++ ahead)).behind cs ahead
    rw [step_of_ne_cr p hc, step_of_ne_cr p hc]
    exact ih _
  | case4 => rfl

/-- What comes next makes no difference, unless it is an LF. -/
theorem behind_of_head? (p : Place) (cs : List Char) {ahead : List Char}
    (h : ahead.head? ≠ some '\n') : p.behind cs ahead = p.behind cs [] := by
  have hnil : p.behind (Text.withLF cs) [] = p.behind cs [] := behind_withLF p (by simp)
  rw [← behind_withLF p h, hnil]

/-- Where only LF ends lines, the line is told by their number and the column by what is behind the
last of them. -/
theorem behind_of_not_cr {cs : List Char} (h : '\r' ∉ cs) (ahead : List Char) :
    behind ⟨1, 1⟩ cs ahead =
      ⟨1 + cs.count '\n', 1 + (cs.reverse.takeWhile (· != '\n')).length⟩ := by
  induction cs using List.reverseRecOn generalizing ahead with
  | nil => rfl
  | append_singleton cs c ih =>
    have hcs : '\r' ∉ cs := fun hmem => h (by simp [hmem])
    have hc : c ≠ '\r' := fun heq => h (by simp [heq])
    rw [behind_append, ih hcs]
    show step _ c ahead = _
    rw [step_of_ne_cr _ hc]
    by_cases hlf : c = '\n'
    · simp [hlf, Nat.add_assoc]
    · simp [hlf, Nat.add_comm]

end Place

namespace Cursor

/-- **Line and column are told by what is before them.** The line is one more than the line breaks
there, and the column one more than the characters behind the last of them. -/
theorem place_between_eq (passed : List Char) {ahead : List Char}
    (h : ahead.head? ≠ some '\n') :
    (between passed ahead).place =
      ⟨1 + Text.lineBreaks passed, 1 + (Text.lastLine passed).length⟩ := by
  rw [place_between, ← Place.behind_withLF _ h,
    Place.behind_of_not_cr (Text.not_cr_mem_withLF passed), Text.lineBreaks, Text.lastLine,
    List.length_reverse]

end Cursor
end Lexeme
