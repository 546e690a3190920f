/-
Lexeme.Text.Utf8 — the bytes of a text.

Scanning works on the UTF-8 bytes of a text and hands texts back, so the two
views are tied here: `bytes` writes a text out, `ofBytes?` reads bytes back
and refuses what no text produces. Main statements: `bytes_append` (the bytes
of a joined text are joined) and `ofBytes?_bytes` (what was written is read
back unchanged).
-/
namespace Lexeme.Text

/-! ## §1 Writing and reading -/

/-- The UTF-8 bytes of a text, in order. -/
def bytes (s : String) : List UInt8 :=
  s.toList.flatMap String.utf8EncodeChar

/-- The text with these bytes; `none` when they are not well-formed UTF-8. -/
def ofBytes? (bs : List UInt8) : Option String :=
  String.fromUTF8? bs.toByteArray

/-- A byte that goes on with a character instead of starting one. -/
def isContinuation (b : UInt8) : Bool :=
  b &&& 0xC0 == 0x80

/-! ## §2 Laws -/

@[simp] theorem bytes_empty : bytes "" = [] := rfl

theorem bytes_append (s t : String) : bytes (s ++ t) = bytes s ++ bytes t := by
  simp [bytes, String.toList_append]

theorem bytes_toByteArray (s : String) : (bytes s).toByteArray = s.toByteArray := by
  have h := String.toByteArray_ofList (l := s.toList)
  rw [String.ofList_toList] at h
  rw [h]
  rfl

/-- A text is read back from its own bytes. -/
theorem ofBytes?_bytes (s : String) : ofBytes? (bytes s) = some s := by
  rw [ofBytes?, bytes_toByteArray, String.fromUTF8?, dif_pos s.isValidUTF8]
  rfl

end Lexeme.Text
