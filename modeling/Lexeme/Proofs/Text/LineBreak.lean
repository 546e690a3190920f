/-
Lexeme.Proofs.Text.LineBreak — one text under three conventions for the ends of lines.

Lines are joined to a text by LF, by CR or by both. What is joined by one
convention is what is joined by LF with each LF written otherwise
(`toList_join`), so the three texts of some lines are compared through the
first. `withLF` goes back: it rewrites every line break to LF, whatever
convention it is of (`withLF_written`).

  §1 Joining   — lines to a text, and one convention by another.
  §2 Rewriting — every line break to LF.
  §3 Offsets   — how much farther on things stand.
-/
import Lexeme.Proofs.Text.CharClass

namespace Lexeme

/-! ## §1 Joining -/

/-- The conventions for the end of a line. -/
inductive LineBreak where
  | lf
  | cr
  | crlf
deriving DecidableEq, Repr

namespace LineBreak

/-- What is written between two lines. -/
def text : LineBreak → String
  | lf => "\n"
  | cr => "\r"
  | crlf => "\r\n"

/-- Lines joined to a text. -/
def join (b : LineBreak) (lines : List String) : String :=
  b.text.intercalate lines

/-- Characters with every LF written by another convention. -/
def written (b : LineBreak) (cs : List Char) : List Char :=
  cs.flatMap fun c => if c = '\n' then b.text.toList else [c]

section
variable (b : LineBreak)

@[simp] theorem written_nil : b.written [] = [] := rfl

@[simp] theorem written_append (cs ds : List Char) :
    b.written (cs ++ ds) = b.written cs ++ b.written ds := by
  simp [written]

theorem written_cons_lf (cs : List Char) : b.written ('\n' :: cs) = b.text.toList ++ b.written cs :=
  rfl

theorem written_cons_of_ne {c : Char} (hc : c ≠ '\n') (cs : List Char) :
    b.written (c :: cs) = c :: b.written cs := by
  simp [written, hc]

theorem written_of_not_mem {cs : List Char} (hcs : '\n' ∉ cs) : b.written cs = cs := by
  induction cs with
  | nil => rfl
  | cons c cs ih =>
    have hc : c ≠ '\n' := fun h => hcs (by simp [h])
    rw [written_cons_of_ne b hc, ih fun h => hcs (by simp [h])]

theorem isLineEnd_of_mem_text : ∀ c ∈ b.text.toList, CharClass.isLineEnd c = true := by
  cases b <;> simp [text, CharClass.isLineEnd]

/-- What is written anew are line ends only. -/
theorem mem_written {c : Char} {cs : List Char} (h : c ∈ b.written cs) :
    CharClass.isLineEnd c = true ∨ c ∈ cs := by
  obtain ⟨d, hd, hc⟩ := List.mem_flatMap.mp h
  by_cases hlf : d = '\n'
  · rw [if_pos hlf] at hc
    exact .inl (isLineEnd_of_mem_text b c hc)
  · rw [if_neg hlf] at hc
    exact .inr (List.mem_singleton.mp hc ▸ hd)

theorem written_intercalate {ls : List (List Char)} (h : ∀ l ∈ ls, '\n' ∉ l) :
    b.written (['\n'].intercalate ls) = b.text.toList.intercalate ls := by
  induction ls with
  | nil => rfl
  | cons l ls ih =>
    have hl := written_of_not_mem b (h l (by simp))
    cases ls with
    | nil => rw [List.intercalate_singleton, List.intercalate_singleton, hl]
    | cons l' ls =>
      have hrest := ih fun m hm => h m (by simp [hm])
      rw [List.intercalate_cons_cons, List.intercalate_cons_cons, written_append, written_append,
        hl, hrest, written_cons_lf]
      simp

/-- Lines that are joined by one convention are lines that are joined by LF, with each LF written by
that convention. -/
theorem toList_join {lines : List String} (h : ∀ line ∈ lines, '\n' ∉ line.toList) :
    (b.join lines).toList = b.written (LineBreak.lf.join lines).toList := by
  rw [join, join, String.toList_intercalate, String.toList_intercalate]
  refine (written_intercalate b fun l hl => ?_).symm
  obtain ⟨line, hline, rfl⟩ := List.mem_map.mp hl
  exact h line hline

/-- Lines without a CR make a text without one when they are joined by LF. -/
theorem not_mem_join_lf {lines : List String} (h : ∀ line ∈ lines, '\r' ∉ line.toList) :
    '\r' ∉ (LineBreak.lf.join lines).toList := by
  rw [join, String.toList_intercalate]
  induction lines with
  | nil => simp
  | cons line lines ih =>
    have hline := h line (by simp)
    have hrest := ih fun l hl => h l (by simp [hl])
    cases lines with
    | nil => simpa using hline
    | cons line' lines =>
      rw [List.map_cons, List.map_cons, List.intercalate_cons_cons]
      simp only [List.map_cons] at hrest
      simpa [text, hline] using hrest

end
end LineBreak

/-! ## §2 Rewriting -/

namespace Text

/-- Characters with every line break rewritten to LF. -/
def withLF : List Char → List Char
  | '\r' :: '\n' :: cs => '\n' :: withLF cs
  | '\r' :: cs => '\n' :: withLF cs
  | c :: cs => c :: withLF cs
  | [] => []

theorem withLF_cons_of_ne {c : Char} (hc : c ≠ '\r') (cs : List Char) :
    withLF (c :: cs) = c :: withLF cs := by
  rw [withLF]
  · intro ds hr
    exact absurd hr hc
  · exact hc

theorem withLF_cr {cs : List Char} (h : '\n' ∉ cs) : withLF ('\r' :: cs) = '\n' :: withLF cs := by
  rw [withLF]
  rintro ds rfl
  exact h (by simp)

end Text

namespace LineBreak

theorem not_mem_written_cr (cs : List Char) : '\n' ∉ LineBreak.cr.written cs := by
  intro h
  obtain ⟨c, _, hc⟩ := List.mem_flatMap.mp h
  by_cases hlf : c = '\n'
  · rw [if_pos hlf] at hc
    exact absurd hc (by decide)
  · rw [if_neg hlf] at hc
    exact hlf (List.mem_singleton.mp hc).symm

/-- Rewriting takes every convention back to LF. -/
theorem withLF_written (b : LineBreak) {cs : List Char} (hcs : '\r' ∉ cs) :
    Text.withLF (b.written cs) = cs := by
  induction cs with
  | nil => rfl
  | cons c cs ih =>
    have hrest := ih fun h => hcs (by simp [h])
    by_cases hc : c = '\n'
    · subst hc
      rw [written_cons_lf]
      cases b with
      | lf =>
        show Text.withLF ('\n' :: LineBreak.lf.written cs) = _
        rw [Text.withLF_cons_of_ne (by decide), hrest]
      | cr =>
        show Text.withLF ('\r' :: LineBreak.cr.written cs) = _
        rw [Text.withLF_cr (not_mem_written_cr cs), hrest]
      | crlf =>
        show '\n' :: Text.withLF (LineBreak.crlf.written cs) = _
        rw [hrest]
    · have hne : c ≠ '\r' := fun h => hcs (by simp [h])
      rw [written_cons_of_ne b hc, Text.withLF_cons_of_ne hne, hrest]

/-! ## §3 Offsets -/

/-- How many more bytes a line break has than an LF. -/
def extra : LineBreak → Nat
  | lf | cr => 0
  | crlf => 1

/-- The offset of what stands at an offset of a text that is joined by LF. -/
def shift (b : LineBreak) (bs : List UInt8) (offset : Nat) : Nat :=
  offset + b.extra * (bs.take offset).count 0x0A

theorem length_text (b : LineBreak) : (Text.encode b.text.toList).length = 1 + b.extra := by
  cases b <;> rfl

theorem length_encode_written (b : LineBreak) (cs : List Char) :
    (Text.encode (b.written cs)).length = (Text.encode cs).length + b.extra * cs.count '\n' := by
  induction cs with
  | nil => rfl
  | cons c cs ih =>
    by_cases hc : c = '\n'
    · subst hc
      rw [written_cons_lf, Text.encode_append, List.length_append, length_text, ih,
        Text.length_encode_cons_of_ascii (by decide), List.count_cons_self, Nat.mul_add]
      omega
    · rw [written_cons_of_ne b hc, Text.encode_cons, Text.encode_cons, List.length_append,
        List.length_append, ih, List.count_cons_of_ne hc]
      omega

/-- Between two characters the offset is that of the same place. -/
theorem shift_encode (b : LineBreak) (front back : List Char) :
    b.shift (Text.encode (front ++ back)) (Text.encode front).length =
      (Text.encode (b.written front)).length := by
  have hcount : (Text.encode front).count 0x0A = front.count '\n' :=
    CharClass.lineFeed_agree.countP_encode front
  rw [shift, Text.encode_append, List.take_left, hcount, length_encode_written]

end LineBreak
end Lexeme
