/-
Lexeme.Proofs.Text.Reading — numbers and texts between double quotes, read back.

A reader takes the characters that are left and gives back what it read with
those behind it. So what is said of it is said with anything behind what was
written. A number goes on as long as there are digits: the lemma of its digits
leaves the rest to go on with (`numeral_toDigits_append`), and only where that
does not begin with a digit is the number at its end.

A text ends with the first double quote that is not part of an escape. Two
forms of such texts differ in their escapes only, and `Escapes` holds what
differs. What is written of a character `Stands` for it if it is the character
itself or a backslash and a code that is read as the character, whatever is
behind; then a whole text written like this is read back (`body_flatMap`).

  §1 Numbers
  §2 Texts between double quotes
  §3 Quoted texts
-/
import Lexeme.Text.Quoted
import Lexeme.Toml.Strings
import Mathlib.Tactic.SplitIfs

namespace Lexeme.Text

open Toml (Reader)

/-! ## §1 Numbers -/

/-- The value of a digit of a base. -/
def digitValue? (base : Nat) (c : Char) : Option Nat :=
  (Toml.hexValue? c).filter (· < base)

/-- Reads the digits behind those that come to `n`. -/
def moreDigits (base : Nat) : Nat → List Char → Nat × List Char
  | n, [] => (n, [])
  | n, c :: cs =>
    match digitValue? base c with
    | some d => moreDigits base (base * n + d) cs
    | none => (n, c :: cs)

/-- A number of at least one digit. -/
def numeral (base : Nat) : Reader Nat
  | [] => none
  | c :: cs => (digitValue? base c).map fun d => moreDigits base d cs

/-- Characters that do not begin with a digit. -/
def NoDigit (base : Nat) (cs : List Char) : Prop :=
  ∀ c ∈ cs.head?, digitValue? base c = none

theorem hexValue?_digitChar : ∀ d < 16, Toml.hexValue? (Nat.digitChar d) = some d := by
  decide

section
variable {base : Nat}

theorem moreDigits_of_noDigit {rest : List Char} (h : NoDigit base rest) (n : Nat) :
    moreDigits base n rest = (n, rest) := by
  cases rest with
  | nil => rfl
  | cons c rest => simp [moreDigits, h c rfl]

variable (hbase : base ≤ 16)
include hbase

theorem digitValue?_digitChar {d : Nat} (hd : d < base) :
    digitValue? base (Nat.digitChar d) = some d := by
  simp [digitValue?, hexValue?_digitChar d (by omega), hd]

/-- The digits of a number come to the number, and what is behind them goes on from there. -/
theorem numeral_toDigits_append (hbase' : 1 < base) (n : Nat) (rest : List Char) :
    numeral base (Nat.toDigits base n ++ rest) = some (moreDigits base n rest) := by
  induction n using Nat.strongRecOn generalizing rest with
  | _ n ih =>
    rw [Nat.toDigits_eq_if hbase']
    split
    · rename_i hlt
      simp [numeral, digitValue?_digitChar hbase hlt]
    · have hlt : n / base < n := Nat.div_lt_self (by omega) hbase'
      have hlast : digitValue? base (Nat.digitChar (n % base)) = some (n % base) :=
        digitValue?_digitChar hbase (Nat.mod_lt n (by omega))
      rw [List.append_assoc, ih (n / base) hlt, List.singleton_append, moreDigits, hlast]
      simp only [Nat.div_add_mod]

theorem numeral_toDigits (hbase' : 1 < base) (n : Nat) {rest : List Char}
    (hrest : NoDigit base rest) :
    numeral base (Nat.toDigits base n ++ rest) = some (n, rest) := by
  rw [numeral_toDigits_append hbase hbase', moreDigits_of_noDigit hrest]

end

/-! ## §2 Texts between double quotes -/

/-- What may stand in a text between double quotes. -/
structure Escapes where
  /-- Reads what is behind a backslash. -/
  code : Reader Char
  /-- Whether a character may stand as it is. -/
  isPlain : Char → Bool

namespace Escapes

variable (e : Escapes)

/-- The rest of a text, its opening quote being passed. -/
def body : Reader (List Char)
  | [] => none
  | '"' :: cs => some ([], cs)
  | '\\' :: cs =>
    match e.code cs with
    -- a code that gave back more than it was given could be read for ever
    | some (c, rest) => if _h : rest.length ≤ cs.length then Toml.prepend c (body rest) else none
    | none => none
  | c :: cs => if e.isPlain c then Toml.prepend c (body cs) else none
termination_by cs => cs.length

/-- A text with the quotes around it. -/
def text : Reader String
  | '"' :: cs => Toml.asText (e.body cs)
  | _ => none

/-- What is written stands for a character. -/
inductive Stands (c : Char) : List Char → Prop
  /-- The character itself, which is neither the quote nor the backslash. -/
  | plain (h : e.isPlain c = true) (hquote : c ≠ '"') (hslash : c ≠ '\\') : Stands c [c]
  /-- A backslash and a code that says itself where it ends. -/
  | coded {code : List Char} (h : ∀ rest, e.code (code ++ rest) = some (c, rest)) :
      Stands c ('\\' :: code)

variable {e}

theorem Stands.body_append {c : Char} {written : List Char} (h : e.Stands c written)
    (rest : List Char) : e.body (written ++ rest) = Toml.prepend c (e.body rest) := by
  cases h with
  | plain h hquote hslash =>
    rw [List.singleton_append, body]
    · rw [if_pos h]
    · exact hquote
    · exact hslash
  | @coded code h =>
    have hlength : rest.length ≤ (code ++ rest).length := by simp
    rw [List.cons_append, body, h rest]
    simp only [hlength, dite_true]

variable {write : Char → List Char}

/-- A text is read back if each of its characters is. -/
theorem body_flatMap (h : ∀ c, e.Stands c (write c)) (cs rest : List Char) :
    e.body (cs.flatMap write ++ '"' :: rest) = some (cs, rest) := by
  induction cs with
  | nil => simp [body]
  | cons c cs ih =>
    rw [List.flatMap_cons, List.append_assoc, (h c).body_append, ih]
    rfl

theorem text_append (h : ∀ c, e.Stands c (write c)) (s : String) (rest : List Char) :
    e.text ('"' :: (s.toList.flatMap write ++ ['"']) ++ rest) = some (s, rest) := by
  have hbody := body_flatMap h s.toList rest
  simp [text, hbody, Toml.asText]

end Escapes

/-! ## §3 Quoted texts -/

namespace Quoted

/-- The character that a code behind a backslash is for: a letter, or a number in braces. -/
def code : Reader Char
  | 'u' :: '\x7b' :: cs =>
    match numeral 16 cs with
    | some (n, '\x7d' :: rest) => if n.isValidChar then some (Char.ofNat n, rest) else none
    | _ => none
  | '0' :: cs => some ('\x00', cs)
  | 't' :: cs => some ('\t', cs)
  | 'r' :: cs => some ('\r', cs)
  | 'n' :: cs => some ('\n', cs)
  | '\\' :: cs => some ('\\', cs)
  | '"' :: cs => some ('"', cs)
  | _ => none

/-- The escapes of a quoted text. An invisible character never stands as it is. -/
def escapes : Escapes where
  code := code
  isPlain c := !isInvisible c

theorem stands_byNumber (c : Char) : escapes.Stands c (byNumber c) := by
  refine .coded fun rest => ?_
  have hend : NoDigit 16 ('\x7d' :: rest) := by
    rintro _ ⟨⟩
    decide
  have hvalid : c.toNat.isValidChar := c.valid
  show code ('u' :: '\x7b' :: (Nat.toDigits 16 c.toNat ++ ['\x7d'] ++ rest)) = some (c, rest)
  rw [List.append_assoc, List.singleton_append, code,
    numeral_toDigits (by decide) (by decide) c.toNat hend]
  simp only [hvalid, if_true, Char.ofNat_toNat]

theorem stands_escape (c : Char) : escapes.Stands c (escape textMark c) := by
  unfold escape
  split_ifs with h0 ht hr hn hslash hmark hinvisible
  · rw [h0]
    exact .coded fun _ => rfl
  · rw [ht]
    exact .coded fun _ => rfl
  · rw [hr]
    exact .coded fun _ => rfl
  · rw [hn]
    exact .coded fun _ => rfl
  · rw [hslash]
    exact .coded fun _ => rfl
  · rw [hmark]
    exact .coded fun _ => rfl
  · exact stands_byNumber c
  · have hplain : escapes.isPlain c = true := by simp [escapes, hinvisible]
    exact .plain hplain hmark hslash

/-- A quoted text is read back, whatever is behind it. -/
theorem text_quoted (s : String) (rest : List Char) :
    escapes.text ((text s).toList ++ rest) = some (s, rest) := by
  rw [text, String.toList_ofList]
  exact Escapes.text_append stands_escape s rest

end Quoted
end Lexeme.Text
