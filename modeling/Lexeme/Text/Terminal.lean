/-
Lexeme.Text.Terminal — texts that a terminal shows and does not obey.

A terminal acts on some control characters: it moves back, rings, clears the
screen or takes what follows as a command. In a text for a terminal each of
these is written by its number: one below U+0080 as `\x` and two hexadecimal
digits, one above it in the way of a quoted text. Everything else stays, tabs
and line ends included.

`isHarmless_of_mem_disarm` says that nothing is left that a terminal acts on.
-/
import Lexeme.Text.Quoted

namespace Lexeme.Text.Terminal

/-- The controls of one byte that a terminal acts on: bell, backspace, form feed, escape and
delete. -/
def isCommand (c : Char) : Bool :=
  c = '\x07' || c = '\x08' || c = '\x0c' || c = '\x1b' || c = '\x7f'

/-- The controls that stand for an escape and a letter, U+0080 to U+009F. -/
def isShortCommand (c : Char) : Bool :=
  0x80 ≤ c.toNat && c.toNat ≤ 0x9F

/-- A character of one byte by its number, in two digits. -/
def byByte (c : Char) : List Char :=
  ['\\', 'x', Nat.digitChar (c.toNat / 16), Nat.digitChar (c.toNat % 16)]

/-- How one character is written. -/
def disarmChar (c : Char) : List Char :=
  if isCommand c then byByte c
  else if isShortCommand c then Quoted.byNumber c
  else [c]

/-- A text without anything that a terminal acts on. -/
def disarm (s : String) : String :=
  String.ofList (s.toList.flatMap disarmChar)

/-! ## Laws -/

/-- Whether a terminal does not act on a character. -/
def isHarmless (c : Char) : Bool :=
  !isCommand c && !isShortCommand c

/-- A character that a terminal acts on is written in harmless characters. -/
theorem isHarmless_of_mem_disarmChar {c d : Char} (h : d ∈ disarmChar c) :
    isHarmless d = true := by
  unfold disarmChar at h
  split at h
  · rename_i hc
    simp only [isCommand, Bool.or_eq_true, decide_eq_true_eq] at hc
    have all : (byByte c).all isHarmless = true := by
      rcases hc with (((rfl | rfl) | rfl) | rfl) | rfl <;> decide
    exact List.all_eq_true.mp all d h
  · split at h
    · rename_i hc
      simp only [isShortCommand, Bool.and_eq_true, decide_eq_true_eq] at hc
      have digits : ∀ n < 0xA0, 0x80 ≤ n →
          (['\\', 'u', '\x7b'] ++ Nat.toDigits 16 n ++ ['\x7d']).all isHarmless = true := by
        decide +kernel
      exact List.all_eq_true.mp (digits c.toNat (by omega) hc.1) d h
    · rename_i h1 h2
      obtain rfl := List.mem_singleton.mp h
      simp [isHarmless, h1, h2]

/-- A disarmed text is harmless throughout. -/
theorem isHarmless_of_mem_disarm {s : String} {d : Char} (h : d ∈ (disarm s).toList) :
    isHarmless d = true := by
  rw [disarm, String.toList_ofList] at h
  obtain ⟨c, _, hd⟩ := List.mem_flatMap.mp h
  exact isHarmless_of_mem_disarmChar hd

end Lexeme.Text.Terminal
