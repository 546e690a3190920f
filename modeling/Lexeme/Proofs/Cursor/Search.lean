/-
Lexeme.Proofs.Cursor.Search — what a search from a cursor finds.

A search is asked for a distance from the cursor and answers with one, but what it
looks at is a slice of the whole text, and what it finds there is an index into the
slice. The slice begins `skip` bytes from the position, or at the end of the text where
that is nearer, so that three ways of counting meet: from the start of the text, from
the cursor and from the start of the slice. `checkedFindBy?` is that search with the one
of the slice left open. Nothing is asked of the latter but that, whatever bytes it is
given, it answers with the index of the first match. Then the search from the cursor
answers with the distance of the first match that is not nearer than `skip`, be it past
the end of the text or inside a character (`searches_find_first`), and a move by this
distance ends on the match.

  §1 Answers   — the first number, from a bound on, that something holds of.
  §2 Slices    — searching a list of bytes.
  §3 Distances — searching from a cursor, and going to what is found.
-/
import Lexeme.Proofs.Cursor.Checked
import Lexeme.Proofs.Cursor.Location

namespace Lexeme

/-! ## §1 Answers -/

/-- The answer of a search for the first number, none below `least`, that `Hit` holds of. -/
structure Answers (Hit : Nat → Prop) (least : Nat) (answer : Option Nat) : Prop where
  some_iff : ∀ d, answer = some d ↔ least ≤ d ∧ Hit d ∧ ∀ j, least ≤ j → j < d → ¬ Hit j
  none_iff : answer = none ↔ ∀ j, least ≤ j → ¬ Hit j

namespace Answers

variable {Hit Hit' : Nat → Prop} {least : Nat} {answer answer' : Option Nat}

/-- A search has one answer. -/
theorem unique (h : Answers Hit least answer) (h' : Answers Hit least answer') :
    answer = answer' :=
  Option.ext fun d => (h.some_iff d).trans (h'.some_iff d).symm

theorem congr (h : Answers Hit least answer) (hiff : ∀ d, Hit d ↔ Hit' d) :
    Answers Hit' least answer := by
  have heq : Hit = Hit' := funext fun d => propext (hiff d)
  exact heq ▸ h

/-- Counted from zero or from `k` on, the first number is the same, `k` apart. -/
theorem shift {k : Nat} (h : Answers (fun i => Hit (i + k)) 0 answer) :
    Answers Hit k (answer.map (· + k)) where
  some_iff d := by
    rw [Option.map_eq_some_iff]
    constructor
    · rintro ⟨i, hi, rfl⟩
      obtain ⟨-, hhit, hfirst⟩ := (h.some_iff i).mp hi
      refine ⟨Nat.le_add_left k i, hhit, fun j hk hj => ?_⟩
      have hmiss := hfirst (j - k) (Nat.zero_le _) (by omega)
      rwa [Nat.sub_add_cancel hk] at hmiss
    · rintro ⟨hk, hhit, hfirst⟩
      refine ⟨d - k, (h.some_iff _).mpr ⟨Nat.zero_le _, ?_, fun j _ hj => ?_⟩,
        Nat.sub_add_cancel hk⟩
      · rwa [Nat.sub_add_cancel hk]
      · exact hfirst (j + k) (Nat.le_add_left k j) (by omega)
  none_iff := by
    rw [Option.map_eq_none_iff, h.none_iff]
    constructor
    · intro hmiss j hk
      have := hmiss (j - k) (Nat.zero_le _)
      rwa [Nat.sub_add_cancel hk] at this
    · intro hmiss j _
      exact hmiss (j + k) (Nat.le_add_left k j)

end Answers

/-! ## §2 Slices -/

theorem any_beq_iff {o : Option UInt8} {b : UInt8} : o.any (· == b) = true ↔ o = some b := by
  cases o <;> simp

theorem any_beq_or_iff {o : Option UInt8} {a b : UInt8} :
    o.any (fun x => x == a || x == b) = true ↔ o = some a ∨ o = some b := by
  cases o <;> simp

theorem any_getElem?_iff {p : UInt8 → Bool} {bs : List UInt8} {i : Nat} :
    bs[i]?.any p = true ↔ ∃ h : i < bs.length, p bs[i] = true := by
  by_cases h : i < bs.length <;> simp [h]

theorem answers_findIdx? (p : UInt8 → Bool) (bs : List UInt8) :
    Answers (fun i => bs[i]?.any p = true) 0 (bs.findIdx? p) where
  some_iff d := by
    rw [List.findIdx?_eq_some_iff_getElem]
    constructor
    · rintro ⟨hlt, hd, hfirst⟩
      refine ⟨Nat.zero_le d, any_getElem?_iff.mpr ⟨hlt, hd⟩, fun j _ hj hany => ?_⟩
      exact hfirst j hj (any_getElem?_iff.mp hany).2
    · rintro ⟨-, hd, hfirst⟩
      obtain ⟨hlt, hp⟩ := any_getElem?_iff.mp hd
      refine ⟨hlt, hp, fun j hj hpj => hfirst j (Nat.zero_le j) hj ?_⟩
      exact any_getElem?_iff.mpr ⟨Nat.lt_trans hj hlt, hpj⟩
  none_iff := by
    rw [List.findIdx?_eq_none_iff]
    constructor
    · intro hnone j _ hany
      obtain ⟨hlt, hp⟩ := any_getElem?_iff.mp hany
      rw [hnone _ (List.getElem_mem hlt)] at hp
      exact Bool.false_ne_true hp
    · intro hmiss b hb
      obtain ⟨i, hlt, rfl⟩ := List.mem_iff_getElem.mp hb
      exact Bool.eq_false_iff.mpr fun hp => hmiss i (Nat.zero_le i) (any_getElem?_iff.mpr ⟨hlt, hp⟩)

/-! ## §3 Distances -/

namespace Cursor

/-- Searches a slice that begins `skip` bytes from the position, or at the end, by `search`. What is
found there is counted from the position again. Refused are a slice that is not in the text and a
distance below zero. -/
def checkedFindBy? (c : Cursor) (search : List UInt8 → Option Nat) (skip : Nat) :
    Option (Option Nat) :=
  let start := min (c.position + skip) c.size
  (c.byteSlice? start c.size).bind fun rest =>
    match search rest with
    | none => some none
    | some i => (checkedSub? (i + start) c.position).map some

theorem checkedFindBy?_findIdx? (c : Cursor) (p : UInt8 → Bool) (skip : Nat) :
    c.checkedFindBy? (List.findIdx? p) skip = c.checkedFind? p skip := rfl

/-- A slice search that finds first matches leads to the distance that the cursor finds. -/
theorem InText.checkedFindBy?_eq {c : Cursor} (h : c.InText) {p : UInt8 → Bool}
    {search : List UInt8 → Option Nat}
    (hsearch : ∀ bs, Answers (fun i => bs[i]?.any p = true) 0 (search bs)) (skip : Nat) :
    c.checkedFindBy? search skip = some (c.find? p skip) := by
  -- of what a search in a slice has to give there is only one, so this may as well be `findIdx?`
  have heq : search = List.findIdx? p :=
    funext fun bs => (hsearch bs).unique (answers_findIdx? p bs)
  rw [heq, checkedFindBy?_findIdx?, h.checkedFind?_eq]

theorem answers_find? (c : Cursor) (p : UInt8 → Bool) (skip : Nat) :
    Answers (fun d => (c.peek? d).any p = true) skip (c.find? p skip) := by
  -- the index `i` of the bytes from `skip` on is the distance `i + skip`
  refine Answers.shift ((answers_findIdx? p (c.ahead.drop skip)).congr fun i => ?_)
  rw [peek?, List.getElem?_drop, Nat.add_comm]

theorem answers_findByte? (c : Cursor) (needle : UInt8) (skip : Nat) :
    Answers (fun d => c.peek? d = some needle) skip (c.findByte? needle skip) :=
  (answers_find? c (· == needle) skip).congr fun _ => any_beq_iff

theorem answers_findLineEnd? (c : Cursor) (skip : Nat) :
    Answers (fun d => (c.peek? d).any ByteClass.isLineEnd = true) skip (c.findLineEnd? skip) :=
  answers_find? c ByteClass.isLineEnd skip

theorem byte?_advanceBy (c : Cursor) (d : Nat) : (c.advanceBy d).byte? = c.peek? d := by
  rw [byte?, peek?, peek?, ahead_advanceBy, List.getElem?_drop, Nat.add_zero]

/-- A move by the distance of a byte is not cut off at the end of the text. -/
theorem position_advanceBy_of_peek? {c : Cursor} {d : Nat} {b : UInt8} (h : c.peek? d = some b) :
    (c.advanceBy d).position = c.position + d := by
  obtain ⟨hlt, -⟩ := List.getElem?_eq_some_iff.mp h
  rw [position_advanceBy, Nat.min_eq_left (Nat.le_of_lt hlt)]

/-- **Searches find the first match from the cursor on.** Let `ofOne` and `ofTwo` be searches that,
in any slice, answer with the index of its first byte that is the one, or one of the two, asked
for. Wherever a cursor has got to, and however far `skip` takes it, a search by them is not refused.
It finds the first distance, none below `skip`, at which the needle, or a byte that ends a line,
stands, and it finds none only if there is no such distance. A move by what was found ends so many
bytes farther, on the byte found. Distances count the bytes of the whole text from the position. -/
theorem searches_find_first {ofOne : UInt8 → List UInt8 → Option Nat}
    {ofTwo : UInt8 → UInt8 → List UInt8 → Option Nat}
    (hone : ∀ a bs, Answers (fun i => bs[i]? = some a) 0 (ofOne a bs))
    (htwo : ∀ a b bs, Answers (fun i => bs[i]? = some a ∨ bs[i]? = some b) 0 (ofTwo a b bs))
    (source : String) (ms : List Move) (needle : UInt8) (skip : Nat) :
    let c := (ofString source).moves ms
    (c.checkedFindBy? (ofOne needle) skip = some (c.findByte? needle skip) ∧
      Answers (fun d => c.peek? d = some needle) skip (c.findByte? needle skip) ∧
      ∀ d, c.findByte? needle skip = some d →
        (c.advanceBy d).position = c.position + d ∧ (c.advanceBy d).byte? = some needle) ∧
    (c.checkedFindBy? (ofTwo 0x0D 0x0A) skip = some (c.findLineEnd? skip) ∧
      Answers (fun d => (c.peek? d).any ByteClass.isLineEnd = true) skip (c.findLineEnd? skip) ∧
      ∀ d, c.findLineEnd? skip = some d →
        (c.advanceBy d).position = c.position + d ∧
          (c.advanceBy d).byte?.any ByteClass.isLineEnd = true) ∧
    ∀ d, c.peek? d = (Text.bytes source)[c.position + d]? := by
  intro c
  have hin : c.InText := inText_moves source ms
  have hsource : c.source = source := (located_of_reaches (reaches_of_moves _ ms)).source_eq
  have hneedle := answers_findByte? c needle skip
  have hline := answers_findLineEnd? c skip
  refine ⟨⟨?_, hneedle, fun d hd => ?_⟩, ⟨?_, hline, fun d hd => ?_⟩, fun d => ?_⟩
  · exact hin.checkedFindBy?_eq (fun bs => (hone needle bs).congr fun _ => any_beq_iff.symm) skip
  · obtain ⟨-, hhit, -⟩ := (hneedle.some_iff d).mp hd
    exact ⟨position_advanceBy_of_peek? hhit, by rw [byte?_advanceBy, hhit]⟩
  · exact hin.checkedFindBy?_eq
      (fun bs => (htwo 0x0D 0x0A bs).congr fun _ => any_beq_or_iff.symm) skip
  · obtain ⟨-, hhit, -⟩ := (hline.some_iff d).mp hd
    obtain ⟨b, hb, -⟩ := (Option.any_eq_true _ _).mp hhit
    exact ⟨position_advanceBy_of_peek? hb, by rw [byte?_advanceBy, hhit]⟩
  · rw [peek?, getElem?_ahead, hsource]

/-- From inside a character and past the CR of a line end, its LF is found and the quote behind it;
from past the end of the text, nothing is. -/
theorem searches_find_first_in_line_end :
    let ofOne (a : UInt8) (bs : List UInt8) := bs.findIdx? (· == a)
    let ofTwo (a b : UInt8) (bs : List UInt8) := bs.findIdx? fun x => x == a || x == b
    let c := (ofString "é\r\n\"é").moves [.advanceBy 1]
    (∀ a bs, Answers (fun i => bs[i]? = some a) 0 (ofOne a bs)) ∧
      (∀ a b bs, Answers (fun i => bs[i]? = some a ∨ bs[i]? = some b) 0 (ofTwo a b bs)) ∧
      c.checkedFindBy? (ofOne ByteClass.quote) 2 = some (some 3) ∧
      (c.advanceBy 3).position = 4 ∧ (c.advanceBy 3).byte? = some ByteClass.quote ∧
      c.checkedFindBy? (ofTwo 0x0D 0x0A) 2 = some (some 2) ∧
      (c.advanceBy 2).byte?.any ByteClass.isLineEnd = true ∧
      c.checkedFindBy? (ofOne ByteClass.quote) 9 = some none := by
  intro ofOne ofTwo c
  have hone (a : UInt8) (bs : List UInt8) :
      Answers (fun i => bs[i]? = some a) 0 (ofOne a bs) :=
    (answers_findIdx? (· == a) bs).congr fun _ => any_beq_iff
  have htwo (a b : UInt8) (bs : List UInt8) :
      Answers (fun i => bs[i]? = some a ∨ bs[i]? = some b) 0 (ofTwo a b bs) :=
    (answers_findIdx? (fun x => x == a || x == b) bs).congr fun _ => any_beq_or_iff
  obtain ⟨⟨hfound, hneedle, hto⟩, ⟨hfound', hline, hto'⟩, -⟩ :=
    searches_find_first hone htwo "é\r\n\"é" [.advanceBy 1] ByteClass.quote 2
  have hquote : c.findByte? ByteClass.quote 2 = some 3 := by
    refine (hneedle.some_iff 3).mpr ⟨by decide, by decide +kernel, fun j hleast hj => ?_⟩
    obtain rfl : j = 2 := by omega
    decide +kernel
  have hlf : c.findLineEnd? 2 = some 2 := by
    refine (hline.some_iff 2).mpr ⟨by decide, by decide +kernel, fun j hleast hj => ?_⟩
    omega
  obtain ⟨⟨hfound'', hbeyond, -⟩, -⟩ :=
    searches_find_first hone htwo "é\r\n\"é" [.advanceBy 1] ByteClass.quote 9
  have hnone : c.findByte? ByteClass.quote 9 = none := by
    refine hbeyond.none_iff.mpr fun j hj => ?_
    have hlen : c.ahead.length ≤ 9 := by decide +kernel
    rw [peek?, List.getElem?_eq_none (Nat.le_trans hlen hj)]
    exact (Option.some_ne_none _).symm
  exact ⟨hone, htwo, hfound.trans (congrArg some hquote), (hto 3 hquote).1, (hto 3 hquote).2,
    hfound'.trans (congrArg some hlf), (hto' 2 hlf).2, hfound''.trans (congrArg some hnone)⟩

end Cursor
end Lexeme
