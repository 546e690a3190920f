/-
Lexeme.Proofs.Report.Line — a listed token is one line, and tells whether it is a comment.

Whatever the text of a token is, what is written of it holds no control
character: quoting and JSON escape them all (`printing_plain`, `printing_json`). So
each token has one line feed, the one behind it, and a listing can be cut back
into the lines it was put together from (`lines_flatten`). Such a line begins
with the kind of its token, and so the lines of the comments can be told from the
others and taken out (`withoutComments_lines`).

  §1 Printing — texts without control characters, and what is written as such.
  §2 Lines    — a text cut behind every line feed.
  §3 Listings — the lines of tokens, and those of comments among them.
-/
import Lexeme.Report.Listing

namespace Lexeme

/-! ## §1 Printing -/

namespace Text

/-- Characters without the controls below the space, line ends among them. -/
def Printing (cs : List Char) : Prop :=
  ∀ c ∈ cs, 0x20 ≤ c.toNat

instance (cs : List Char) : Decidable (Printing cs) :=
  decidable_of_iff (cs.all (0x20 ≤ ·.toNat) = true) (by simp [Printing])

@[simp] theorem printing_nil : Printing [] := by
  simp [Printing]

@[simp] theorem printing_cons {c : Char} {cs : List Char} :
    Printing (c :: cs) ↔ 0x20 ≤ c.toNat ∧ Printing cs := by
  simp [Printing]

@[simp] theorem printing_append {cs ds : List Char} :
    Printing (cs ++ ds) ↔ Printing cs ∧ Printing ds := by
  simp [Printing, or_imp, forall_and]

theorem Printing.not_lineFeed {cs : List Char} (h : Printing cs) : '\n' ∉ cs := by
  intro hmem
  exact absurd (h '\n' hmem) (by decide)

theorem printing_flatMap {f : Char → List Char} (h : ∀ c, Printing (f c)) (cs : List Char) :
    Printing (cs.flatMap f) := by
  intro d hd
  obtain ⟨c, _, hc⟩ := List.mem_flatMap.mp hd
  exact h c d hc

theorem printing_digitChar (n : Nat) : 0x20 ≤ (Nat.digitChar n).toNat := by
  rcases Nat.lt_or_ge n 16 with hlt | hge
  · have hall : ∀ d < 16, 0x20 ≤ (Nat.digitChar d).toNat := by decide
    exact hall n hlt
  · rw [Nat.digitChar_eq_star.mpr hge]
    decide

theorem printing_toDigits {b : Nat} (hb : 1 < b) (n : Nat) : Printing (Nat.toDigits b n) := by
  induction n using Nat.strongRecOn with
  | _ n ih =>
    rw [Nat.toDigits_eq_if hb]
    split
    · simp [printing_digitChar]
    · have hlt : n / b < n := Nat.div_lt_self (by omega) hb
      simp [ih (n / b) hlt, printing_digitChar]

theorem isInvisible_of_lt {c : Char} (h : c.toNat < 0x20) : isInvisible c = true := by
  have hvisible : ¬ (0x20 ≤ c.toNat && c.toNat < 0x7F) = true := by
    simp
    omega
  rw [isInvisible, if_neg hvisible, List.any_eq_true]
  refine ⟨(0x0, 0x1F), .head _, ?_⟩
  simp
  omega

namespace Quoted

theorem printing_byNumber (c : Char) : Printing (byNumber c) := by
  have hdigits := printing_toDigits (b := 16) (by decide) c.toNat
  simp [byNumber, hdigits]

theorem printing_escape {mark : Char} (hmark : 0x20 ≤ mark.toNat) (c : Char) :
    Printing (escape mark c) := by
  unfold escape
  repeat' split
  -- what is written by a letter is the same text for every mark
  any_goals decide
  · simp [hmark]
  · exact printing_byNumber c
  · rename_i hvisible
    have hge : 0x20 ≤ c.toNat := by
      rcases Nat.lt_or_ge c.toNat 0x20 with hlt | hge
      · exact absurd (isInvisible_of_lt hlt) hvisible
      · exact hge
    simp [hge]

theorem printing_text (s : String) : Printing (text s).toList := by
  have hmark : 0x20 ≤ textMark.toNat := by decide
  have hbody := printing_flatMap (printing_escape hmark) s.toList
  simp [text, hbody, hmark]

end Quoted

namespace JsonString

theorem printing_escape (c : Char) : Printing (escape c) := by
  unfold escape
  repeat' split
  any_goals decide
  · simp [hexDigit, printing_digitChar]
  · rename_i hge
    simp
    omega

theorem printing_encode (s : String) : Printing (encode s).toList := by
  have hbody := printing_flatMap printing_escape s.toList
  simp [encode, hbody]

end JsonString
end Text

theorem Kind.printing_name (k : Kind) : Text.Printing k.name.toList := by
  cases k <;> decide

namespace Token

theorem printing_plain (t : Token) : Text.Printing t.plain.toList := by
  simp [plain, Kind.printing_name, Text.printing_toDigits, Text.Quoted.printing_text]

theorem printing_json (t : Token) : Text.Printing t.json.toList := by
  simp [json, Kind.printing_name, Text.printing_toDigits, Text.JsonString.printing_encode]

end Token

/-! ## §2 Lines -/

namespace Text

/-- Characters cut behind every line feed. -/
def lines : List Char → List (List Char)
  | [] => []
  | c :: cs =>
    if c = '\n' then [c] :: lines cs
    else
      match lines cs with
      | [] => [[c]]
      | l :: ls => (c :: l) :: ls

theorem lines_append {l : List Char} (hl : '\n' ∉ l) (cs : List Char) :
    lines (l ++ '\n' :: cs) = (l ++ ['\n']) :: lines cs := by
  induction l with
  | nil => simp [lines]
  | cons c l ih =>
    have hc : c ≠ '\n' := fun h => hl (by simp [h])
    have hrest : lines (l ++ '\n' :: cs) = (l ++ ['\n']) :: lines cs :=
      ih fun h => hl (by simp [h])
    rw [List.cons_append, lines, if_neg hc, hrest]
    rfl

/-- Lines that are put together are cut apart again. -/
theorem lines_flatten {ls : List (List Char)}
    (h : ∀ l ∈ ls, ∃ body, '\n' ∉ body ∧ l = body ++ ['\n']) : lines ls.flatten = ls := by
  induction ls with
  | nil => rfl
  | cons l ls ih =>
    obtain ⟨body, hbody, rfl⟩ := h l (by simp)
    have hrest := ih fun l hl => h l (by simp [hl])
    rw [List.flatten_cons, List.append_assoc, List.singleton_append, lines_append hbody, hrest]

end Text

/-! ## §3 Listings -/

theorem Kind.name_inj {k k' : Kind} (h : k.name = k'.name) : k = k' := by
  have heq : some k = some k' := by rw [← ofName?_name k, ← ofName?_name k', h]
  exact Option.some.inj heq

/-- Two words with the same mark behind them, which is in neither of them. -/
theorem prefix_word_iff {mark : Char} {word word' : List Char} (h : mark ∉ word)
    (h' : mark ∉ word') (rest : List Char) :
    word ++ [mark] <+: word' ++ mark :: rest ↔ word = word' := by
  induction word generalizing word' with
  | nil =>
    cases word' with
    | nil => simp
    | cons d word' =>
      have hd : mark ≠ d := fun heq => h' (by simp [heq])
      simp [hd]
  | cons c word ih =>
    have hc : c ≠ mark := fun heq => h (by simp [heq])
    cases word' with
    | nil => simp [hc]
    | cons d word' =>
      have hword : mark ∉ word := fun hmem => h (by simp [hmem])
      have hword' : mark ∉ word' := fun hmem => h' (by simp [hmem])
      simp [List.cons_prefix_cons, ih hword hword']

namespace Listing

theorem Format.line_eq (format : Format) (t : Token) :
    ∃ body, Text.Printing body ∧ (format.line t).toList = body ++ ['\n'] := by
  cases format with
  | plain => exact ⟨t.plain.toList, t.printing_plain, String.toList_append⟩
  | json => exact ⟨t.json.toList, t.printing_json, String.toList_append⟩

/-- The lines of some tokens. -/
def Format.lines (format : Format) (ts : List Token) : String :=
  String.join (ts.map format.line)

/-- What stands before the kind in a line. -/
def Format.lead : Format → List Char
  | plain => []
  | json => "\x7b\"kind\":\"".toList

/-- What stands behind the kind in a line. -/
def Format.mark : Format → Char
  | plain => ' '
  | json => '"'

/-- Whether a line is that of a token of a kind. -/
def Format.isOf (format : Format) (k : Kind) (line : List Char) : Bool :=
  (format.lead ++ (k.name.toList ++ [format.mark])).isPrefixOf line

/-- A listing with the lines of comments taken out. -/
def Format.withoutComments (format : Format) (output : String) : String :=
  .ofList ((Text.lines output.toList).filter fun line => !format.isOf .comment line).flatten

theorem Format.mark_not_mem_name (format : Format) (k : Kind) : format.mark ∉ k.name.toList := by
  cases format <;> cases k <;> decide

/-- A line begins with the kind of its token. -/
theorem Format.exists_line_eq (format : Format) (t : Token) :
    ∃ rest, (format.line t).toList =
      format.lead ++ (t.kind.name.toList ++ format.mark :: rest) := by
  cases format with
  | plain =>
    refine ⟨(toString t.start ++ " " ++ Text.Quoted.text t.text ++ "\n").toList, ?_⟩
    show (plain.line t).toList = t.kind.name.toList ++ ' ' :: _
    simp [line, Token.plain]
  | json =>
    refine ⟨(",\"text\":" ++ Text.JsonString.encode t.text ++ ",\"start\":" ++ toString t.start
      ++ "\x7d\n").toList, ?_⟩
    show (json.line t).toList = "\x7b\"kind\":\"".toList ++ (t.kind.name.toList ++ '"' :: _)
    simp [line, Token.json]

theorem Format.isOf_line (format : Format) (k : Kind) (t : Token) :
    format.isOf k (format.line t).toList = (t.kind == k) := by
  obtain ⟨rest, hline⟩ := format.exists_line_eq t
  have hword : k.name.toList ++ [format.mark] <+: t.kind.name.toList ++ format.mark :: rest ↔
      t.kind = k := by
    rw [prefix_word_iff (format.mark_not_mem_name k) (format.mark_not_mem_name t.kind),
      String.toList_inj]
    exact ⟨fun h => (Kind.name_inj h).symm, fun h => congrArg Kind.name h.symm⟩
  rw [hline, isOf, Bool.eq_iff_iff, List.isPrefixOf_iff_prefix, List.prefix_append_right_inj,
    hword, beq_iff_eq]

theorem Format.toList_lines (format : Format) (ts : List Token) :
    (format.lines ts).toList = (ts.map fun t => (format.line t).toList).flatten := by
  simp [lines, String.toList_join, List.flatMap, Function.comp_def]

/-- A listing is cut into the lines of its tokens. -/
theorem Format.lines_lines (format : Format) (ts : List Token) :
    Text.lines (format.lines ts).toList = ts.map fun t => (format.line t).toList := by
  rw [toList_lines]
  refine Text.lines_flatten ?_
  intro l hl
  obtain ⟨t, -, rfl⟩ := List.mem_map.mp hl
  obtain ⟨body, hbody, hline⟩ := format.line_eq t
  exact ⟨body, hbody.not_lineFeed, hline⟩

/-- Taking the lines of comments out of a listing leaves the listing of the other tokens. -/
theorem Format.withoutComments_lines (format : Format) (ts : List Token) :
    format.withoutComments (format.lines ts) =
      format.lines (ts.filter fun t => t.kind != .comment) := by
  rw [withoutComments, lines_lines, ← String.toList_inj, String.toList_ofList, toList_lines,
    List.filter_map]
  simp [Function.comp_def, isOf_line, bne]

end Listing
end Lexeme
