/-
Lexeme.Proofs.Cursor.Between — a cursor between two characters.

`between passed ahead` is the cursor of the text `passed ++ ahead` that has
passed the characters `passed`. Seen so, reading is a matter of lists of
characters: moving over a piece hands it from the second list to the first
(`advanceBy_between`), and looking, searching and cutting never leave the
boundaries between characters, whatever bytes they go through.

  §1 Standing  — what such a cursor knows.
  §2 Moving    — over a piece of the text, or over a run of a class.
  §3 Cutting   — the next character and the piece since another such cursor.
-/
import Lexeme.Proofs.Cursor.Movement
import Lexeme.Proofs.Text.CharClass

namespace Lexeme.Cursor

/-! ## §1 Standing -/

/-- The cursor of a text between two pieces that make it up. -/
def between (passed ahead : List Char) : Cursor :=
  (ofString (String.ofList (passed ++ ahead))).advanceBy (Text.encode passed).length

theorem ofString_eq_between (source : String) : ofString source = between [] source.toList := by
  rw [between, List.nil_append, String.ofList_toList]
  rfl

@[simp] theorem source_between (passed ahead : List Char) :
    (between passed ahead).source = String.ofList (passed ++ ahead) := by
  rw [between, source_advanceBy, source_ofString]

@[simp] theorem ahead_between (passed ahead : List Char) :
    (between passed ahead).ahead = Text.encode ahead := by
  rw [between, ahead_advanceBy]
  simp

@[simp] theorem position_between (passed ahead : List Char) :
    (between passed ahead).position = (Text.encode passed).length := by
  rw [between, position_advanceBy]
  simp

@[simp] theorem isOnBoundary_between (passed ahead : List Char) :
    (between passed ahead).isOnBoundary = true := by
  have hhead := Text.head?_encode_not_continuation ahead
  rw [isOnBoundary, ahead_between]
  cases h : (Text.encode ahead).head? with
  | none => rfl
  | some b => simp [hhead b h]

theorem byte?_between_cons {c : Char} {b : UInt8} {bs : List UInt8}
    (henc : String.utf8EncodeChar c = b :: bs) (passed cs : List Char) :
    (between passed (c :: cs)).byte? = some b := by
  simp [byte?, peek?, Text.encode_cons, henc]

theorem exists_encode_of_byte? {c : Char} {b : UInt8} {passed cs : List Char}
    (hb : (between passed (c :: cs)).byte? = some b) : ∃ bs, String.utf8EncodeChar c = b :: bs := by
  obtain ⟨b', bs, henc, _⟩ := Text.utf8EncodeChar_shape c
  obtain rfl : b' = b := by simpa [byte?_between_cons henc] using hb
  exact ⟨bs, henc⟩

theorem byte?_between_nil (passed : List Char) : (between passed []).byte? = none := by
  simp [byte?, peek?]

/-! ## §2 Moving -/

theorem advanceBy_between (passed piece ahead : List Char) :
    (between passed (piece ++ ahead)).advanceBy (Text.encode piece).length =
      between (passed ++ piece) ahead := by
  rw [between, advanceBy_advanceBy, between, ← List.append_assoc, Text.encode_append,
    List.length_append]

theorem advance_between {c : Char} (hc : c.toNat < 0x80) (passed ahead : List Char) :
    (between passed (c :: ahead)).advance = between (passed ++ [c]) ahead := by
  have hlen : (Text.encode [c]).length = 1 := Text.length_encode_cons_of_ascii hc []
  rw [advance_eq_advanceBy, ← hlen]
  exact advanceBy_between passed [c] ahead

theorem advanceBy_size_between (passed ahead : List Char) :
    (between passed ahead).advanceBy (between passed ahead).size =
      between (passed ++ ahead) [] := by
  have hle : (between passed ahead).ahead.length ≤ (between passed ahead).size := by
    simp [size]
  rw [advanceBy_of_length_le hle, ahead_between]
  simpa using advanceBy_between passed ahead []

/-- Eating a class passes the characters of the class that come next. -/
theorem eatWhile_between {p : UInt8 → Bool} {q : Char → Bool} (h : Agree p q)
    {run ahead : List Char} (hrun : ∀ c ∈ run, q c = true)
    (hahead : ∀ c ∈ ahead.head?, q c = false) (passed : List Char) :
    (between passed (run ++ ahead)).eatWhile p = between (passed ++ run) ahead := by
  have hbytes : (between passed (run ++ ahead)).ahead = Text.encode run ++ Text.encode ahead := by
    simp
  have hstop : ∀ b ∈ (Text.encode ahead).head?, p b = false :=
    h.of_mem_head?_encode (P := (· = false)) hahead
  rw [← advanceBy_between]
  exact eatWhile_of_append hbytes (h.of_mem_encode hrun) hstop

/-- The distance to the next character of a class is the length of what stands before it. -/
theorem find?_between {p : UInt8 → Bool} {q : Char → Bool} (h : Agree p q) (first : List Char)
    {run : List Char} {c : Char} (hrun : ∀ c ∈ run, q c = false) (hc : q c = true)
    (passed ahead : List Char) :
    (between passed (first ++ run ++ c :: ahead)).find? p (Text.encode first).length =
      some (Text.encode (first ++ run)).length := by
  have henc := h.encode_of_class hc
  have hb : p (UInt8.ofNat c.toNat) = true := by rw [h.first henc, hc]
  have hbytes : (between passed (first ++ run ++ c :: ahead)).ahead =
      Text.encode (first ++ run) ++ UInt8.ofNat c.toNat :: Text.encode ahead := by
    simp [Text.encode_cons, henc]
  refine find?_of_append hbytes ?_ ?_ hb
  · simp
  · simpa using h.not_of_mem_encode hrun

theorem find?_between_eq_none {p : UInt8 → Bool} {q : Char → Bool} (h : Agree p q)
    (first : List Char) {run : List Char} (hrun : ∀ c ∈ run, q c = false) (passed : List Char) :
    (between passed (first ++ run)).find? p (Text.encode first).length = none := by
  refine find?_eq_none ?_
  simpa using h.not_of_mem_encode hrun

/-! ## §3 Cutting -/

theorem char?_between (passed : List Char) (c : Char) (ahead : List Char) :
    (between passed (c :: ahead)).char? = some c := by
  obtain ⟨b, bs, henc, _⟩ := Text.utf8EncodeChar_shape c
  have hahead : (between passed (c :: ahead)).ahead = b :: (bs ++ Text.encode ahead) := by
    simp [Text.encode_cons, henc]
  have hchar : Text.ofBytes? (b :: bs) = some (String.ofList [c]) := by
    rw [← Text.ofBytes?_encode]
    simp [Text.encode_cons, henc]
  unfold char?
  rw [hahead]
  simp only [Text.takeWhile_continuation henc, hchar, Option.bind_eq_bind, Option.bind_some]
  rw [String.toList_ofList, List.head?_cons]

theorem since?_between (passed piece ahead : List Char) :
    (between (passed ++ piece) ahead).since? (between passed (piece ++ ahead)) =
      some (String.ofList piece) := by
  simp [since?]

theorem isBoundary_between (passed ahead : List Char) :
    (ofString (String.ofList (passed ++ ahead))).isBoundary (Text.encode passed).length = true := by
  have hdrop : (Text.bytes (String.ofList (passed ++ ahead))).drop (Text.encode passed).length =
      Text.encode ahead := by simp
  unfold isBoundary
  rw [source_ofString, hdrop]
  cases hahead : Text.encode ahead with
  | nil => simp [hahead]
  | cons b bs =>
    have := Text.head?_encode_not_continuation ahead b (by simp [hahead])
    simp [this]

/-- The piece of a text between two of its characters, by their offsets. -/
theorem slice?_ofString (passed piece ahead : List Char) :
    (ofString (String.ofList (passed ++ (piece ++ ahead)))).slice? (Text.encode passed).length
      (Text.encode (passed ++ piece)).length = some (String.ofList piece) := by
  have hstart := isBoundary_between passed (piece ++ ahead)
  have hstop := isBoundary_between (passed ++ piece) ahead
  rw [List.append_assoc] at hstop
  have hcut : ((Text.bytes (String.ofList (passed ++ (piece ++ ahead)))).drop
      (Text.encode passed).length).take
        ((Text.encode (passed ++ piece)).length - (Text.encode passed).length) =
      Text.encode piece := by simp
  rw [slice?, if_pos ⟨by simp, hstart, hstop⟩, source_ofString, hcut, Text.ofBytes?_encode]

end Lexeme.Cursor
