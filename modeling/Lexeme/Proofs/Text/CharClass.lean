/-
Lexeme.Proofs.Text.CharClass — the classes of characters a grammar speaks of.

`ByteClass` sorts bytes, because that is what a scanner looks at; here are
the same classes for characters. `Agree` ties the two: they say the same of
ASCII, and of anything longer both say nothing. It follows that a class may be
tested on the first byte of a character (`Agree.first`), and that a run of
characters and the run of their bytes end together (`Agree.of_mem_encode`,
`Agree.of_mem_head?_encode`).

Classes of either kind are put together from single characters (`Agree.only`)
and from all characters between two (`Agree.range`), so they agree because
their parts do.

  §1 Classes   — blanks, line ends and the characters of words.
  §2 Agreement — what follows for texts where two classes agree.
  §3 Parts     — why the classes agree, part by part, and that no two of those
                 that could start a token share a character.
-/
import Lexeme.Proofs.Text.Encoding
import Lexeme.Text.ByteClass
import Lexeme.Token.Kind

namespace Lexeme

/-! ## §1 Classes -/

namespace CharClass

/-- Ends a line: CR or LF. -/
def isLineEnd (c : Char) : Bool :=
  c == '\r' || c == '\n'

/-- Separates tokens and belongs to none: space, tab, CR or LF. -/
def isBlank (c : Char) : Bool :=
  c == ' ' || c == '\t' || isLineEnd c

/-- Starts an identifier: an ASCII letter, `_` or `$`. -/
def isWordStart (c : Char) : Bool :=
  c.isAlpha || c == '_' || c == '$'

/-- Goes on with an identifier: what may start one, or a digit. -/
def isWordPart (c : Char) : Bool :=
  isWordStart c || c.isDigit

end CharClass

/-! ## §2 Agreement -/

/-- What is said of bytes is what is said of characters: the same of each ASCII character and its
byte, and `default` of everything else. -/
structure Agree {α : Type} [Inhabited α] (p : UInt8 → α) (q : Char → α) : Prop where
  ascii : ∀ n : Fin 128, p (UInt8.ofNat n) = q (Char.ofNat n)
  byte : ∀ b : UInt8, 0x80 ≤ b.toNat → p b = default
  char : ∀ c : Char, 0x80 ≤ c.toNat → q c = default

namespace Agree

section
variable {α : Type} [Inhabited α] {p : UInt8 → α} {q : Char → α}

/-- The first byte of a character stands for it. -/
theorem first (h : Agree p q) {c : Char} {b : UInt8} {bs : List UInt8}
    (henc : String.utf8EncodeChar c = b :: bs) : p b = q c := by
  by_cases hc : c.toNat < 0x80
  · rw [Text.utf8EncodeChar_of_ascii hc] at henc
    obtain ⟨rfl, -⟩ : UInt8.ofNat c.toNat = b ∧ [] = bs := by simpa using henc
    have := h.ascii ⟨c.toNat, hc⟩
    rwa [Char.ofNat_toNat] at this
  · obtain ⟨b', bs', henc', hb, _⟩ := Text.utf8EncodeChar_of_wide (by omega : 0x80 ≤ c.toNat)
    obtain ⟨rfl, rfl⟩ : b = b' ∧ bs = bs' := by simpa [henc] using henc'
    rw [h.byte b (by omega), h.char c (by omega)]

theorem later (h : Agree p q) {c : Char} {b : UInt8} {bs : List UInt8}
    (henc : String.utf8EncodeChar c = b :: bs) : ∀ x ∈ bs, p x = default := by
  intro x hx
  by_cases hc : c.toNat < 0x80
  · rw [Text.utf8EncodeChar_of_ascii hc] at henc
    obtain ⟨-, rfl⟩ : UInt8.ofNat c.toNat = b ∧ [] = bs := by simpa using henc
    simp at hx
  · obtain ⟨b', bs', henc', _, hbs⟩ := Text.utf8EncodeChar_of_wide (by omega : 0x80 ≤ c.toNat)
    obtain ⟨rfl, rfl⟩ : b = b' ∧ bs = bs' := by simpa [henc] using henc'
    exact h.byte x (hbs x hx).1

theorem of_mem_head?_encode (h : Agree p q) {cs : List Char} {P : α → Prop}
    (hcs : ∀ c ∈ cs.head?, P (q c)) : ∀ b ∈ (Text.encode cs).head?, P (p b) := by
  intro b hb
  cases cs with
  | nil => simp at hb
  | cons c rest =>
    obtain ⟨b', bs, henc, _⟩ := Text.utf8EncodeChar_shape c
    obtain rfl : b' = b := by simpa [Text.encode_cons, henc] using hb
    rw [h.first henc]
    exact hcs c rfl

end

section
variable {p : UInt8 → Bool} {q : Char → Bool}

theorem lt_of_class (h : Agree p q) {c : Char} (hc : q c = true) : c.toNat < 0x80 := by
  by_cases hlt : c.toNat < 0x80
  · exact hlt
  · have := h.char c (by omega)
    simp [hc] at this

theorem encode_of_class (h : Agree p q) {c : Char} (hc : q c = true) :
    String.utf8EncodeChar c = [UInt8.ofNat c.toNat] :=
  Text.utf8EncodeChar_of_ascii (h.lt_of_class hc)

theorem of_mem_encode (h : Agree p q) {cs : List Char} (hcs : ∀ c ∈ cs, q c = true) :
    ∀ b ∈ Text.encode cs, p b = true := by
  intro b hb
  obtain ⟨c, hc, hbc⟩ := List.mem_flatMap.mp hb
  have henc := h.encode_of_class (hcs c hc)
  rw [henc, List.mem_singleton] at hbc
  rw [hbc, h.first henc]
  exact hcs c hc

theorem not_of_mem_encode (h : Agree p q) {cs : List Char} (hcs : ∀ c ∈ cs, q c = false) :
    ∀ b ∈ Text.encode cs, p b = false := by
  intro b hb
  obtain ⟨c, hc, hbc⟩ := List.mem_flatMap.mp hb
  obtain ⟨b', bs, henc, _⟩ := Text.utf8EncodeChar_shape c
  rw [henc] at hbc
  rcases List.mem_cons.mp hbc with rfl | hbs
  · rw [h.first henc]
    exact hcs c hc
  · exact h.later henc b hbs

/-- A class may be tested on the first byte of what is ahead. -/
theorem any_head?_encode (h : Agree p q) (cs : List Char) :
    (Text.encode cs).head?.any p = cs.head?.any q := by
  cases cs with
  | nil => rfl
  | cons c cs =>
    obtain ⟨b, bs, henc, _⟩ := Text.utf8EncodeChar_shape c
    simp [Text.encode_cons, henc, h.first henc]

/-- There are as many bytes of a class as characters. -/
theorem countP_encode (h : Agree p q) (cs : List Char) :
    (Text.encode cs).countP p = cs.countP q := by
  induction cs with
  | nil => rfl
  | cons c cs ih =>
    obtain ⟨b, bs, henc, _⟩ := Text.utf8EncodeChar_shape c
    have hnone : bs.countP p = 0 := by
      rw [List.countP_eq_zero]
      intro x hx
      simp [h.later henc x hx]
    rw [Text.encode_cons, henc, List.countP_append, ih, List.countP_cons, List.countP_cons, hnone,
      h.first henc]
    omega

end
end Agree

/-! ## §3 Parts -/

namespace Agree

/-- What is said of a code is said of bytes and of characters alike, if it is `default` for all that
are longer than ASCII. -/
theorem of_code {α : Type} [Inhabited α] {p : UInt8 → α} {q : Char → α} (f : Nat → α)
    (hp : ∀ b, p b = f b.toNat) (hq : ∀ c, q c = f c.toNat)
    (hf : ∀ n, 0x80 ≤ n → f n = default) : Agree p q where
  ascii n := by rw [hp, hq, Text.toNat_byteOfNat n.isLt, Text.toNat_charOfNat n.isLt]
  byte b hb := by rw [hp, hf _ hb]
  char c hc := by rw [hq, hf _ hc]

theorem or {p p' : UInt8 → Bool} {q q' : Char → Bool} (h : Agree p q) (h' : Agree p' q') :
    Agree (fun b => p b || p' b) (fun c => q c || q' c) where
  ascii n := by rw [h.ascii, h'.ascii]
  byte b hb := by rw [h.byte b hb, h'.byte b hb]; rfl
  char c hc := by rw [h.char c hc, h'.char c hc]; rfl

/-- One character alone. -/
theorem only (d : Char) (hd : d.toNat < 0x80) :
    Agree (fun b => b == UInt8.ofNat d.toNat) (fun c => c == d) := by
  refine of_code (fun n => n == d.toNat) (fun b => ?_) (fun c => ?_) fun n hn => ?_
  · simp only [Bool.beq_eq_decide_eq, ← UInt8.toNat_inj, Text.toNat_byteOfNat hd]
  · simp only [Bool.beq_eq_decide_eq, ← Char.toNat_inj]
  · have hne : n ≠ d.toNat := by omega
    exact beq_eq_false_iff_ne.mpr hne

/-- All characters from one to another. -/
theorem range (lo hi : Char) (hle : lo.toNat ≤ hi.toNat) (hhi : hi.toNat < 0x80) :
    Agree (fun b => UInt8.ofNat lo.toNat ≤ b && b ≤ UInt8.ofNat hi.toNat)
      (fun c => lo ≤ c && c ≤ hi) := by
  have hlo : lo.toNat < 0x80 := by omega
  refine of_code (fun n => lo.toNat ≤ n && n ≤ hi.toNat) (fun b => ?_) (fun c => rfl) fun n hn => ?_
  · simp only [UInt8.le_iff_toNat_le, Text.toNat_byteOfNat hlo, Text.toNat_byteOfNat hhi]
  · have hout : ¬ n ≤ hi.toNat := by omega
    simp [hout]

end Agree

namespace CharClass

theorem lineFeed_agree : Agree (· == (0x0A : UInt8)) (· == '\n') :=
  .only '\n' (by decide)

theorem carriageReturn_agree : Agree (· == (0x0D : UInt8)) (· == '\r') :=
  .only '\r' (by decide)

theorem quote_agree : Agree (· == ByteClass.quote) (· == '"') :=
  .only '"' (by decide)

theorem slash_agree : Agree (· == ByteClass.slash) (· == '/') :=
  .only '/' (by decide)

theorem isLineEnd_agree : Agree ByteClass.isLineEnd isLineEnd :=
  carriageReturn_agree.or lineFeed_agree

theorem isBlank_agree : Agree ByteClass.isBlank isBlank :=
  ((Agree.only ' ' (by decide)).or (.only '\t' (by decide))).or isLineEnd_agree

theorem isDigit_agree : Agree ByteClass.isDigit Char.isDigit :=
  Agree.range '0' '9' (by decide) (by decide)

theorem isAlpha_eq (c : Char) : c.isAlpha = ('A' ≤ c && c ≤ 'Z' || 'a' ≤ c && c ≤ 'z') := by
  show (decide ('A' ≤ c ∧ c ≤ 'Z') || ('a' ≤ c && c ≤ 'z')) = _
  rw [Bool.decide_and]

theorem isAlpha_agree :
    Agree (fun b => (0x41 ≤ b && b ≤ 0x5A) || (0x61 ≤ b && b ≤ 0x7A)) Char.isAlpha := by
  rw [funext isAlpha_eq]
  exact (Agree.range 'A' 'Z' (by decide) (by decide)).or (.range 'a' 'z' (by decide) (by decide))

theorem isWordStart_agree : Agree ByteClass.isWordStart isWordStart :=
  (isAlpha_agree.or (.only '_' (by decide))).or (.only '$' (by decide))

theorem isWordPart_agree : Agree ByteClass.isWordPart isWordPart :=
  isWordStart_agree.or isDigit_agree

theorem operator_agree : Agree Kind.ofByte? Kind.ofChar? := by
  refine .of_code (fun n => (Kind.operators.find? fun o => o.1.toNat == n).map Prod.snd)
    (fun b => rfl) (fun c => ?_) fun n hn => ?_
  · simp only [Kind.ofChar?, Bool.beq_eq_decide_eq, ← Char.toNat_inj]
  · have hlt : ∀ o ∈ Kind.operators, o.1.toNat < 0x80 := by decide
    have hnone : Kind.operators.find? (fun o => o.1.toNat == n) = none := by
      rw [List.find?_eq_none]
      intro o ho heq
      have := hlt o ho
      rw [beq_iff_eq] at heq
      omega
    rw [hnone]
    rfl

theorem isBlank_of_lineEnd {c : Char} (hc : isLineEnd c = true) : isBlank c = true := by
  simp [isBlank, hc]

theorem not_lineEnd_of_not_blank {c : Char} (hc : isBlank c = false) : isLineEnd c = false := by
  simp only [isBlank, Bool.or_eq_false_iff] at hc
  exact hc.2

theorem ne_of_class {p : Char → Bool} {c d : Char} (hc : p c = true) (hd : p d = false) : c ≠ d := by
  rintro rfl
  simp [hc] at hd

/-- No two classes share a character that could start a token. -/
theorem isWordPart_alone {c : Char} (hc : isWordPart c = true) :
    isBlank c = false ∧ c ≠ '/' ∧ Kind.ofChar? c = none := by
  have hoperators : ∀ o ∈ Kind.operators, isWordPart o.1 = false := by decide
  have hnone : Kind.operators.find? (fun o => o.1 == c) = none := by
    rw [List.find?_eq_none]
    intro o ho heq
    exact ne_of_class hc (hoperators o ho) (beq_iff_eq.mp heq).symm
  refine ⟨?_, ne_of_class hc (by decide), by rw [Kind.ofChar?, hnone]; rfl⟩
  have hspace : c ≠ ' ' := ne_of_class hc (by decide)
  have htab : c ≠ '\t' := ne_of_class hc (by decide)
  have hcr : c ≠ '\r' := ne_of_class hc (by decide)
  have hlf : c ≠ '\n' := ne_of_class hc (by decide)
  simp [isBlank, isLineEnd, hspace, htab, hcr, hlf]

theorem isWordStart_alone {c : Char} (hc : isWordStart c = true) :
    isBlank c = false ∧ c ≠ '/' ∧ Kind.ofChar? c = none :=
  isWordPart_alone (by rw [isWordPart, hc]; rfl)

theorem not_isWordStart_of_isDigit {c : Char} (hc : c.isDigit = true) : isWordStart c = false := by
  have hle : c ≤ '9' := of_decide_eq_true ((Bool.and_eq_true _ _).mp hc).2
  have hupper : ¬ 'A' ≤ c := fun h => absurd (Char.le_trans h hle) (by decide)
  have hlower : ¬ 'a' ≤ c := fun h => absurd (Char.le_trans h hle) (by decide)
  have halpha : c.isAlpha = false := by simp [isAlpha_eq, hupper, hlower]
  have hunderscore : c ≠ '_' := ne_of_class hc (by decide)
  have hdollar : c ≠ '$' := ne_of_class hc (by decide)
  simp [isWordStart, halpha, hunderscore, hdollar]

theorem isDigit_alone {c : Char} (hc : c.isDigit = true) :
    isBlank c = false ∧ c ≠ '/' ∧ Kind.ofChar? c = none ∧ isWordStart c = false := by
  have hpart : isWordPart c = true := by rw [isWordPart, hc, Bool.or_true]
  obtain ⟨hblank, hslash, hop⟩ := isWordPart_alone hpart
  exact ⟨hblank, hslash, hop, not_isWordStart_of_isDigit hc⟩

theorem operator_alone {c : Char} {k : Kind} (h : (c, k) ∈ Kind.operators) :
    isBlank c = false ∧ c ≠ '/' ∧ c.toNat < 0x80 := by
  have hall : ∀ o ∈ Kind.operators, isBlank o.1 = false ∧ o.1 ≠ '/' ∧ o.1.toNat < 0x80 := by
    decide
  exact hall (c, k) h

end CharClass
end Lexeme
