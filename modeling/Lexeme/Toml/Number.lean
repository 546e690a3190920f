/-
Lexeme.Toml.Number — the numbers of a TOML document.

Digits may be grouped by single underscores. An integer has 64 bits and a
sign. A float is a double: one that is written without a minus sign must be
finite, unless it is the word `inf` or `nan`.

  §1 Digits
  §2 Integers
  §3 Floats
-/
import Lexeme.Toml.Item
import Lexeme.Toml.Strings

namespace Lexeme.Toml

/-! ## §1 Digits -/

/-- The values of the digits at the front, of which each but the first may have an underscore
before it, and what is left. -/
def digitTail (base : Nat) : List Char → List Nat × List Char
  | [] => ([], [])
  | '_' :: c :: cs =>
    match (hexValue? c).filter (· < base) with
    | some d =>
      let (ds, rest) := digitTail base cs
      (d :: ds, rest)
    | none => ([], '_' :: c :: cs)
  | c :: cs =>
    match (hexValue? c).filter (· < base) with
    | some d =>
      let (ds, rest) := digitTail base cs
      (d :: ds, rest)
    | none => ([], c :: cs)

/-- One digit or more. -/
def digits (base : Nat) : Reader (List Nat)
  | [] => none
  | c :: cs => do
    let d ← (hexValue? c).filter (· < base)
    let (ds, rest) := digitTail base cs
    some (d :: ds, rest)

/-- The number that digits stand for. -/
def ofDigits (base : Nat) (ds : List Nat) : Nat :=
  ds.foldl (fun n d => base * n + d) 0

/-- Exactly so many decimal digits, without underscores. -/
def fixedDigits : Nat → Nat → Reader Nat
  | 0, n, cs => some (n, cs)
  | _ + 1, _, [] => none
  | k + 1, n, c :: cs =>
    if c.isDigit then fixedDigits k (10 * n + (c.toNat - '0'.toNat)) cs else none

/-- A sign, if there is one: whether it is a minus. -/
def sign : List Char → Bool × List Char
  | '-' :: cs => (true, cs)
  | '+' :: cs => (false, cs)
  | cs => (false, cs)

/-- The digits of a decimal number, which has no zeros in front. -/
def decimalDigits : Reader (List Nat)
  | '0' :: cs => some ([0], cs)
  | cs => digits 10 cs

/-! ## §2 Integers -/

/-- Whether a number fits 64 bits with a sign. -/
def fitsWord (n : Int) : Bool :=
  -0x8000000000000000 ≤ n && n < 0x8000000000000000

/-- An integer, if it fits. -/
def integerItem (n : Int) (rest : List Char) : Option (Item × List Char) :=
  if fitsWord n then some (.integer n, rest) else none

/-- An integer with digits of a base, its mark being passed. -/
def basedInteger (base : Nat) : Reader Item := fun cs => do
  let (ds, rest) ← digits base cs
  integerItem (ofDigits base ds) rest

/-- A decimal integer. -/
def decimalInteger : Reader Item := fun cs => do
  let (negative, cs) := sign cs
  let (ds, rest) ← decimalDigits cs
  let n : Int := ofDigits 10 ds
  integerItem (if negative then -n else n) rest

/-- An integer in any of the four bases. -/
def integer : Reader Item
  | '0' :: 'x' :: cs => basedInteger 16 cs
  | '0' :: 'o' :: cs => basedInteger 8 cs
  | '0' :: 'b' :: cs => basedInteger 2 cs
  | cs => decimalInteger cs

/-! ## §3 Floats -/

/-- What lies halfway between the largest finite double and the next power of two: from there on
a number is rounded to infinity. -/
def overflowFrom : Nat :=
  Nat.pow 2 1024 - Nat.pow 2 970

/-- Whether a number with these digits, times ten to the exponent, is rounded to infinity. The
number of digits settles it unless the result is near the border. -/
def overflows (ds : List Nat) (exponent : Int) : Bool :=
  let ds := ds.dropWhile (· == 0)
  let magnitude : Int := ds.length + exponent
  if ds.isEmpty || magnitude < 300 then false
  else if 320 < magnitude then true
  else if 0 ≤ exponent then overflowFrom ≤ ofDigits 10 ds * Nat.pow 10 exponent.toNat
  else overflowFrom * Nat.pow 10 (-exponent).toNat ≤ ofDigits 10 ds

/-- A fraction, if one starts here: its digits. -/
def fraction : Reader (Option (List Nat))
  | '.' :: cs => (digits 10 cs).map fun (ds, rest) => (some ds, rest)
  | cs => some (none, cs)

/-- An exponent, if one starts here. -/
def exponent : Reader (Option Int)
  | [] => some (none, [])
  | c :: cs =>
    if c == 'e' || c == 'E' then do
      let (negative, cs) := sign cs
      let (ds, rest) ← digits 10 cs
      let n : Int := ofDigits 10 ds
      some (some (if negative then -n else n), rest)
    else some (none, c :: cs)

/-- A float in digits: it has a fraction, an exponent or both. -/
def digitFloat : Reader Item := fun cs => do
  let (negative, cs) := sign cs
  let (whole, cs) ← decimalDigits cs
  let (part, cs) ← fraction cs
  let (power, rest) ← exponent cs
  let decimals := part.getD []
  if part.isNone && power.isNone then none
  else if !negative && overflows (whole ++ decimals) (power.getD 0 - decimals.length) then none
  else some (.float, rest)

/-- A float in words. -/
def wordFloat : Reader Item := fun cs =>
  match (sign cs).2 with
  | 'i' :: 'n' :: 'f' :: rest => some (.float, rest)
  | 'n' :: 'a' :: 'n' :: rest => some (.float, rest)
  | _ => none

end Lexeme.Toml
