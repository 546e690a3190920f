/-
Lexeme.Proofs.Text.Json — JSON objects of texts and whole numbers.

The reader takes what JSON allows of such an object: blanks and line ends
between its parts, every escape of a text, surrogate pairs among them. The
writer leaves all blanks out and writes texts by `JsonString.encode`. Reading
what was written gives the members back in their order, whatever blanks are
behind the object (`object?_write`).

  §1 Texts
  §2 Values
  §3 Objects
-/
import Lexeme.Proofs.Text.Reading
import Lexeme.Text.JsonString

namespace Lexeme.Text

open Toml (Reader)

/-! ## §1 Texts -/

namespace JsonString

/-- The number that four hexadecimal digits stand for. -/
def fourDigits : Reader Nat
  | a :: b :: c :: d :: cs =>
    match digitValue? 16 a, digitValue? 16 b, digitValue? 16 c, digitValue? 16 d with
    | some a, some b, some c, some d => some (((a * 16 + b) * 16 + c) * 16 + d, cs)
    | _, _, _, _ => none
  | _ => none

/-- The second half of a character beyond four digits, the first one being passed. -/
def lowHalf (high : Nat) : Reader Char
  | '\\' :: 'u' :: cs =>
    match fourDigits cs with
    | some (low, rest) =>
      if 0xDC00 ≤ low ∧ low < 0xE000 then
        some (Char.ofNat (0x10000 + (high - 0xD800) * 0x400 + (low - 0xDC00)), rest)
      else none
    | none => none
  | _ => none

/-- The character that a code behind a backslash is for: a letter, or `u` and four digits, which
may be one half of a pair. -/
def code : Reader Char
  | 'u' :: cs =>
    match fourDigits cs with
    | some (n, rest) =>
      if 0xD800 ≤ n ∧ n < 0xDC00 then lowHalf n rest
      else if n.isValidChar then some (Char.ofNat n, rest)
      else none
    | none => none
  | '/' :: cs => some ('/', cs)
  | c :: cs => (Toml.simpleEscape? c).map fun c => (c, cs)
  | [] => none

/-- The escapes of a JSON string. Controls never stand as they are. -/
def escapes : Escapes where
  code := code
  isPlain c := 0x20 ≤ c.toNat

theorem fourDigits_control {n : Nat} (hn : n < 0x20) (rest : List Char) :
    fourDigits ('0' :: '0' :: hexDigit (n / 16) :: hexDigit n :: rest) = some (n, rest) := by
  have hzero : digitValue? 16 '0' = some 0 := by decide
  have hdigit (m : Nat) : digitValue? 16 (hexDigit m) = some (m % 16) :=
    digitValue?_digitChar (by decide) (Nat.mod_lt m (by decide))
  simp only [fourDigits, hzero, hdigit, Option.some.injEq, Prod.mk.injEq, and_true]
  omega

theorem code_control {c : Char} (hc : c.toNat < 0x20) (rest : List Char) :
    code ('u' :: '0' :: '0' :: hexDigit (c.toNat / 16) :: hexDigit c.toNat :: rest) =
      some (c, rest) := by
  have hvalid : c.toNat.isValidChar := c.valid
  have hwhole : ¬ (0xD800 ≤ c.toNat ∧ c.toNat < 0xDC00) := by omega
  simp only [code, fourDigits_control hc, if_neg hwhole, if_pos hvalid, Char.ofNat_toNat]

theorem stands_escape (c : Char) : escapes.Stands c (escape c) := by
  unfold escape
  split_ifs with hquote hslash hb ht hn hf hr hcontrol
  · rw [hquote]
    exact .coded fun _ => rfl
  · rw [hslash]
    exact .coded fun _ => rfl
  · rw [hb]
    exact .coded fun _ => rfl
  · rw [ht]
    exact .coded fun _ => rfl
  · rw [hn]
    exact .coded fun _ => rfl
  · rw [hf]
    exact .coded fun _ => rfl
  · rw [hr]
    exact .coded fun _ => rfl
  · exact .coded (code_control hcontrol)
  · have hplain : escapes.isPlain c = true := by
      simpa [escapes] using hcontrol
    exact .plain hplain hquote hslash

theorem exists_encode (s : String) : ∃ cs, (encode s).toList = '"' :: cs :=
  ⟨_, String.toList_ofList⟩

/-- A JSON string is read back, whatever is behind it. -/
theorem text_encode (s : String) (rest : List Char) :
    escapes.text ((encode s).toList ++ rest) = some (s, rest) := by
  rw [encode, String.toList_ofList]
  exact Escapes.text_append stands_escape s rest

end JsonString

namespace Json

/-! ## §2 Values -/

/-- The value of a member. -/
inductive Value where
  | text (s : String)
  | number (n : Nat)
deriving DecidableEq, Repr

/-- A whole number, which has no zeros in front. -/
def whole : Reader Nat
  | '0' :: cs => some (0, cs)
  | cs => numeral 10 cs

/-- A value. -/
def value : Reader Value
  | '"' :: cs => (JsonString.escapes.text ('"' :: cs)).map fun (s, rest) => (.text s, rest)
  | cs => (whole cs).map fun (n, rest) => (.number n, rest)

/-- A value as it is written. -/
def Value.write : Value → List Char
  | text s => (JsonString.encode s).toList
  | number n => Nat.toDigits 10 n

/-- A number begins with a digit, which is zero for zero only. -/
theorem exists_toDigits (n : Nat) :
    ∃ c ds, Nat.toDigits 10 n = c :: ds ∧ c.isDigit = true ∧ (c = '0' → n = 0) := by
  induction n using Nat.strongRecOn with
  | _ n ih =>
    rw [Nat.toDigits_eq_if (by decide)]
    split
    · rename_i hlt
      refine ⟨Nat.digitChar n, [], rfl, ?_, Nat.digitChar_eq_zero.mp⟩
      rw [Nat.isDigit_digitChar, decide_eq_true hlt]
    · obtain ⟨c, ds, hds, hdigit, hzero⟩ := ih (n / 10) (by omega)
      refine ⟨c, ds ++ [Nat.digitChar (n % 10)], by rw [hds, List.cons_append], hdigit, ?_⟩
      intro hc
      have := hzero hc
      omega

theorem whole_toDigits (n : Nat) {rest : List Char} (hrest : NoDigit 10 rest) :
    whole (Nat.toDigits 10 n ++ rest) = some (n, rest) := by
  rcases Nat.eq_zero_or_pos n with rfl | hpos
  · rfl
  · have hread := numeral_toDigits (by decide) (by decide : 1 < 10) n hrest
    obtain ⟨c, ds, hds, -, hzero⟩ := exists_toDigits n
    rw [hds, List.cons_append] at hread ⊢
    rw [whole, hread]
    rintro cs ⟨⟩
    exact absurd (hzero rfl) (by omega)

theorem value_write (v : Value) {rest : List Char} (hrest : NoDigit 10 rest) :
    value (v.write ++ rest) = some (v, rest) := by
  cases v with
  | text s =>
    have hread := JsonString.text_encode s rest
    obtain ⟨cs, hcs⟩ := JsonString.exists_encode s
    rw [hcs, List.cons_append] at hread
    rw [Value.write, hcs, List.cons_append, value, hread]
    rfl
  | number n =>
    have hread := whole_toDigits n hrest
    obtain ⟨c, ds, hds, hdigit, -⟩ := exists_toDigits n
    rw [hds, List.cons_append] at hread
    rw [Value.write, hds, List.cons_append, value, hread]
    · rfl
    · rintro cs ⟨⟩
      exact absurd hdigit (by decide)

/-! ## §3 Objects -/

/-- What may stand between the parts of an object. -/
def isBlank (c : Char) : Bool :=
  c == ' ' || c == '\t' || c == '\n' || c == '\r'

/-- What is left behind blanks and line ends. -/
def skipBlanks (cs : List Char) : List Char :=
  cs.dropWhile isBlank

/-- A key and its value. -/
def member : Reader (String × Value) := fun cs =>
  match JsonString.escapes.text (skipBlanks cs) with
  | none => none
  | some (key, cs) =>
    match skipBlanks cs with
    | ':' :: cs => (value (skipBlanks cs)).map fun (v, rest) => ((key, v), skipBlanks rest)
    | _ => none

/-- The members of an object and its closing brace. -/
def members (cs : List Char) : Option (List (String × Value) × List Char) :=
  match member cs with
  | some (m, ',' :: rest) =>
    if _h : rest.length < cs.length then (members rest).map fun (ms, rest) => (m :: ms, rest)
    else none
  | some (m, '\x7d' :: rest) => some ([m], rest)
  | _ => none
termination_by cs.length

/-- What is behind an opening brace: the members of an object and its closing brace. -/
def behindBrace (cs : List Char) : Option (List (String × Value) × List Char) :=
  match skipBlanks cs with
  | '\x7d' :: rest => some ([], rest)
  | cs => members cs

/-- The members of the object that some characters are, in their order. -/
def object? (cs : List Char) : Option (List (String × Value)) :=
  match skipBlanks cs with
  | '\x7b' :: cs =>
    (behindBrace cs).bind fun (ms, rest) => if skipBlanks rest = [] then some ms else none
  | _ => none

/-- A member as it is written. -/
def writeMember (m : String × Value) : List Char :=
  (JsonString.encode m.1).toList ++ ':' :: m.2.write

/-- Members as they are written, and the closing brace. -/
def writeMembers : List (String × Value) → List Char
  | [] => ['\x7d']
  | [m] => writeMember m ++ ['\x7d']
  | m :: ms => writeMember m ++ ',' :: writeMembers ms

/-- An object as it is written. -/
def write (ms : List (String × Value)) : List Char :=
  '\x7b' :: writeMembers ms

theorem skipBlanks_cons {c : Char} (hc : isBlank c = false) (cs : List Char) :
    skipBlanks (c :: cs) = c :: cs := by
  simp [skipBlanks, hc]

theorem skipBlanks_of_forall {cs : List Char} (h : ∀ c ∈ cs, isBlank c = true) :
    skipBlanks cs = [] := by
  have hall : (cs ++ []).dropWhile isBlank = [].dropWhile isBlank :=
    List.dropWhile_append_of_pos h
  rwa [List.append_nil] at hall

theorem isBlank_of_isDigit {c : Char} (hc : c.isDigit = true) : isBlank c = false := by
  rw [Bool.eq_false_iff]
  intro hblank
  simp only [isBlank, Bool.or_eq_true, beq_iff_eq] at hblank
  rcases hblank with ((rfl | rfl) | rfl) | rfl <;> exact absurd hc (by decide)

theorem skipBlanks_write (v : Value) (rest : List Char) :
    skipBlanks (v.write ++ rest) = v.write ++ rest := by
  cases v with
  | text s =>
    obtain ⟨cs, hcs⟩ := JsonString.exists_encode s
    rw [Value.write, hcs, List.cons_append, skipBlanks_cons (by decide)]
  | number n =>
    obtain ⟨c, ds, hds, hdigit, -⟩ := exists_toDigits n
    rw [Value.write, hds, List.cons_append, skipBlanks_cons (isBlank_of_isDigit hdigit)]

/-- A member is read back before the comma or the brace behind it. -/
theorem member_write (m : String × Value) {c : Char} (hblank : isBlank c = false)
    (hdigit : digitValue? 10 c = none) (rest : List Char) :
    member (writeMember m ++ c :: rest) = some (m, c :: rest) := by
  have hrest : NoDigit 10 (c :: rest) := by
    rintro _ ⟨⟩
    exact hdigit
  have hkey := JsonString.text_encode m.1 (':' :: (m.2.write ++ c :: rest))
  obtain ⟨cs, hcs⟩ := JsonString.exists_encode m.1
  rw [hcs, List.cons_append] at hkey
  rw [writeMember, List.append_assoc, hcs, List.cons_append, List.cons_append, member,
    skipBlanks_cons (by decide), hkey]
  simp only [skipBlanks_cons (by decide : isBlank ':' = false), skipBlanks_write,
    value_write m.2 hrest, Option.map_some, skipBlanks_cons hblank]

theorem members_write {ms : List (String × Value)} (hne : ms ≠ []) (rest : List Char) :
    members (writeMembers ms ++ rest) = some (ms, rest) := by
  induction ms with
  | nil => contradiction
  | cons m ms ih =>
    cases ms with
    | nil =>
      rw [writeMembers, List.append_assoc, members, List.singleton_append,
        member_write m (by decide) (by decide)]
      rfl
    | cons m' ms =>
      have hlater := ih (List.cons_ne_nil m' ms)
      have hshorter : (writeMembers (m' :: ms) ++ rest).length <
          (writeMember m ++ ',' :: (writeMembers (m' :: ms) ++ rest)).length := by
        simp
        omega
      rw [writeMembers, List.append_assoc, members, List.cons_append,
        member_write m (by decide) (by decide)]
      · simp only [hshorter, dite_true, hlater, Option.map_some]
      · exact List.cons_ne_nil m' ms

theorem behindBrace_write (ms : List (String × Value)) (rest : List Char) :
    behindBrace (writeMembers ms ++ rest) = some (ms, rest) := by
  cases ms with
  | nil => rfl
  | cons m ms =>
    have hread := members_write (List.cons_ne_nil m ms) rest
    obtain ⟨cs, hcs⟩ : ∃ cs, writeMembers (m :: ms) = '"' :: cs := by
      obtain ⟨cs, hcs⟩ := JsonString.exists_encode m.1
      cases ms <;> simp [writeMembers, writeMember, hcs]
    rw [hcs, List.cons_append] at hread ⊢
    rw [behindBrace, skipBlanks_cons (by decide)]
    exact hread

/-- **An object is read back**, whatever blanks are behind it. -/
theorem object?_write (ms : List (String × Value)) {tail : List Char}
    (htail : ∀ c ∈ tail, isBlank c = true) : object? (write ms ++ tail) = some ms := by
  rw [write, List.cons_append, object?, skipBlanks_cons (by decide)]
  simp only [behindBrace_write, Option.bind_some, skipBlanks_of_forall htail, if_true]

/-- Blanks and a surrogate pair, which are never written. -/
example : object? "\x7b \"a\" : \"\\ud83d\\ude00\\/\" ,\n\"b\":12 \x7d".toList =
    some [("a", .text "😀/"), ("b", .number 12)] := by
  cbv

end Json
end Lexeme.Text
