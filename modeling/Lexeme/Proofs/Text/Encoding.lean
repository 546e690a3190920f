/-
Lexeme.Proofs.Text.Encoding — a text as characters and as bytes.

A scanner looks at bytes, a grammar at characters. The two views meet in
`encode`, which writes characters out one after the other, and in one fact
about its pieces: the first byte of a character is never a continuation
byte and all later ones are. So a place between two characters can be told
from a place inside one by looking at the next byte.

  §1 Encoding   — `encode` and the texts it writes (`ofBytes?_encode`).
  §2 Characters — the bytes of one character, ASCII or longer
                  (`utf8EncodeChar_of_ascii`, `utf8EncodeChar_of_wide`).
  §3 Boundaries — what `encode` puts first (`head?_encode_not_continuation`) and
                  how far one character reaches (`takeWhile_continuation`).
-/
import Lexeme.Text.Utf8

namespace Lexeme.Text

/-! ## §1 Encoding -/

/-- The UTF-8 bytes of some characters. -/
def encode (cs : List Char) : List UInt8 :=
  cs.flatMap String.utf8EncodeChar

@[simp] theorem encode_nil : encode [] = [] := rfl

theorem encode_cons (c : Char) (cs : List Char) :
    encode (c :: cs) = String.utf8EncodeChar c ++ encode cs := rfl

@[simp] theorem encode_append (cs ds : List Char) : encode (cs ++ ds) = encode cs ++ encode ds := by
  simp [encode]

attribute [simp] bytes_append

theorem bytes_eq_encode (s : String) : bytes s = encode s.toList := rfl

@[simp] theorem bytes_ofList (cs : List Char) : bytes (String.ofList cs) = encode cs := by
  rw [bytes_eq_encode, String.toList_ofList]

@[simp] theorem ofBytes?_encode (cs : List Char) :
    ofBytes? (encode cs) = some (String.ofList cs) := by
  rw [← bytes_ofList, ofBytes?_bytes]

theorem bytes_of_ofBytes? {bs : List UInt8} {s : String} (h : ofBytes? bs = some s) :
    bytes s = bs := by
  unfold ofBytes? String.fromUTF8? at h
  split at h
  · obtain rfl := Option.some.inj h
    rw [← List.toByteArray_inj, bytes_toByteArray]
    rfl
  · simp at h

theorem length_bytes (s : String) : (bytes s).length = s.utf8ByteSize := by
  rw [← List.size_toByteArray, bytes_toByteArray, String.size_toByteArray]

@[simp] theorem utf8ByteSize_ofList (cs : List Char) :
    (String.ofList cs).utf8ByteSize = (encode cs).length := by
  rw [← length_bytes, bytes_ofList]

/-! ## §2 Characters -/

/-- To prove something of every byte, go through the 256 of them. -/
theorem forall_byte {P : UInt8 → Prop} (h : ∀ n : Fin 256, P (UInt8.ofFin n)) (b : UInt8) :
    P b := by
  simpa using h b.toFin

theorem toNat_byteOfNat {n : Nat} (h : n < 0x80) : (UInt8.ofNat n).toNat = n := by
  rw [UInt8.toNat_ofNat']
  omega

theorem toNat_charOfNat {n : Nat} (h : n < 0x80) : (Char.ofNat n).toNat = n := by
  have hvalid : n.isValidChar := .inl (by omega)
  rw [Char.ofNat, dif_pos hvalid]
  rfl

theorem isContinuation_iff (b : UInt8) :
    isContinuation b = true ↔ 0x80 ≤ b.toNat ∧ b.toNat < 0xC0 := by
  revert b
  refine forall_byte ?_
  decide +kernel

theorem utf8EncodeChar_of_ascii {c : Char} (h : c.toNat < 0x80) :
    String.utf8EncodeChar c = [UInt8.ofNat c.toNat] := by
  have hle : c.val.toNat ≤ 0x7F := by
    have : c.toNat = c.val.toNat := rfl
    omega
  simp only [String.utf8EncodeChar, if_pos hle]
  rfl

theorem length_encode_cons_of_ascii {c : Char} (h : c.toNat < 0x80) (cs : List Char) :
    (encode (c :: cs)).length = (encode cs).length + 1 := by
  simp [encode_cons, utf8EncodeChar_of_ascii h, Nat.add_comm]

/-- A character beyond ASCII begins with a byte from 0xC0 on, and goes on with
continuation bytes. -/
theorem utf8EncodeChar_of_wide {c : Char} (h : 0x80 ≤ c.toNat) :
    ∃ b bs, String.utf8EncodeChar c = b :: bs ∧ 0xC0 ≤ b.toNat ∧
      ∀ x ∈ bs, 0x80 ≤ x.toNat ∧ x.toNat < 0xC0 := by
  have hv : c.toNat = c.val.toNat := rfl
  have hmax : c.val.toNat ≤ 0x10FFFF := by
    have := c.valid
    simp [UInt32.isValidChar, Nat.isValidChar] at this
    omega
  fun_cases String.utf8EncodeChar c with
  | case1 v hle => omega
  | case2 v _ hle =>
    refine ⟨_, _, rfl, ?_, ?_⟩ <;> simp [UInt8.toNat_ofNat'] <;> omega
  | case3 v _ _ hle =>
    refine ⟨_, _, rfl, ?_, ?_⟩ <;> simp [UInt8.toNat_ofNat'] <;> omega
  | case4 v _ _ hle =>
    refine ⟨_, _, rfl, ?_, ?_⟩ <;> simp [UInt8.toNat_ofNat'] <;> omega

/-- The shape of every character: one byte that starts it, then continuation bytes only. -/
theorem utf8EncodeChar_shape (c : Char) :
    ∃ b bs, String.utf8EncodeChar c = b :: bs ∧ isContinuation b = false ∧
      ∀ x ∈ bs, isContinuation x = true := by
  by_cases h : c.toNat < 0x80
  · refine ⟨_, _, utf8EncodeChar_of_ascii h, ?_, by simp⟩
    rw [← Bool.not_eq_true, isContinuation_iff]
    have : (UInt8.ofNat c.toNat).toNat = c.toNat := by
      rw [UInt8.toNat_ofNat']; omega
    omega
  · obtain ⟨b, bs, henc, hb, hbs⟩ := utf8EncodeChar_of_wide (by omega : 0x80 ≤ c.toNat)
    refine ⟨b, bs, henc, ?_, fun x hx => (isContinuation_iff x).mpr (hbs x hx)⟩
    rw [← Bool.not_eq_true, isContinuation_iff]
    omega

/-! ## §3 Boundaries -/

/-- Bytes that begin where a character may begin: there are none, or the first is no
continuation byte. -/
theorem head?_encode_not_continuation (cs : List Char) :
    ∀ b ∈ (encode cs).head?, isContinuation b = false := by
  intro b hb
  cases cs with
  | nil => simp at hb
  | cons c rest =>
    obtain ⟨b', bs, henc, hb', _⟩ := utf8EncodeChar_shape c
    rw [encode_cons, henc] at hb
    simp only [List.cons_append, List.head?_cons, Option.mem_def, Option.some.injEq] at hb
    exact hb ▸ hb'

/-- Behind its first byte, a character reaches as far as the continuation bytes do. -/
theorem takeWhile_continuation {c : Char} {b : UInt8} {bs : List UInt8}
    (henc : String.utf8EncodeChar c = b :: bs) (cs : List Char) :
    (bs ++ encode cs).takeWhile isContinuation = bs := by
  obtain ⟨b', bs', henc', _, hbs⟩ := utf8EncodeChar_shape c
  obtain ⟨rfl, rfl⟩ : b = b' ∧ bs = bs' := by simpa [henc] using henc'
  have hstop : (encode cs).takeWhile isContinuation = [] := by
    cases hcs : encode cs with
    | nil => rfl
    | cons x xs =>
      have := head?_encode_not_continuation cs x (by simp [hcs])
      simp [this]
  rw [List.takeWhile_append_of_pos hbs, hstop, List.append_nil]

end Lexeme.Text
