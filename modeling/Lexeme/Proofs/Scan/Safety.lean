/-
Lexeme.Proofs.Scan.Safety — no call ever asks for a piece that is not there.

A call of a scanner cuts its token out of the text, looks for line ends and
quotes in the bytes ahead, and reads the character it refuses. Done by
offsets, each of these takes a slice of the text, and `checkedStep?` is a call
that takes them so and gives up where one cannot be taken. A scanner stands
between two characters all its life (`Upright`): the bytes it stops at are
ASCII, and no longer character has such a byte in it. From there a checked
call never gives up (`checkedStep?_eq_next`), and `bench_safe` says so of all
scanners that are made, loaded, called and copied.

  §1 Calls     — the calls of a scanner, with every slice taken by offsets.
  §2 Agreement — in the text they are the calls that are not checked.
  §3 Standing  — between two characters, whatever is called.
  §4 Benches   — scanners side by side, and copies of them.
-/
import Lexeme.Proofs.Cursor.Checked
import Lexeme.Proofs.Scan.Session

namespace Lexeme

namespace Scanner

open Cursor

/-! ## §1 Calls -/

/-- The token of a kind from `mark` to `stop`, cut out by their offsets. -/
def checkedEmit? (kind : Kind) (mark stop : Cursor) : Option Token :=
  (stop.sliceFrom? mark.position).map fun text => ⟨kind, text, mark.position⟩

def checkedUpTo? (kind : Kind) (mark stop : Cursor) : Option Reading :=
  (checkedEmit? kind mark stop).map fun t => .token t stop

def checkedComment? (mark : Cursor) : Option Reading := do
  match ← mark.checkedFind? ByteClass.isLineEnd 2 with
  | some distance =>
    let stop ← mark.checkedAdvanceBy? distance
    let t ← checkedEmit? .comment mark stop
    let after ← stop.checkedAdvanceBy? 1
    return .token t after
  | none =>
    let stop ← mark.checkedAdvanceBy? mark.size
    checkedUpTo? .comment mark stop

def checkedQuoted? (mark : Cursor) : Option Reading := do
  match ← mark.checkedFind? (· == ByteClass.quote) 1 with
  | some distance =>
    let stop ← mark.checkedAdvanceBy? (distance + 1)
    checkedUpTo? .quote mark stop
  | none => return .error (.openQuote mark.position)

/-- Reads what stands at `mark`, whose byte is `b`. -/
def checkedRead? (mark : Cursor) (b : UInt8) : Option Reading :=
  if b == ByteClass.slash then
    if mark.peek? 1 == some ByteClass.slash then checkedComment? mark
    else (mark.checkedAdvanceBy? 1).bind (checkedUpTo? .divide mark)
  else
    match Kind.ofByte? b with
    | some kind => (mark.checkedAdvanceBy? 1).bind (checkedUpTo? kind mark)
    | none =>
      if ByteClass.isWordStart b then do
        let second ← mark.checkedAdvanceBy? 1
        let stop ← second.checkedEatWhile? ByteClass.isWordPart
        checkedUpTo? .identifier mark stop
      else if ByteClass.isDigit b then
        (mark.checkedEatWhile? ByteClass.isDigit).bind (checkedUpTo? .number mark)
      else if b == ByteClass.quote then checkedQuoted? mark
      else mark.checkedChar?.map fun found => .error (.unexpected mark.position found)

/-- One call; `none` where a slice is not to be had. -/
def checkedStep? (s : Scanner) : Option Step :=
  match s.failure with
  | some e => some ⟨.failed e, none, s⟩
  | none => do
    let mark ← s.cursor.checkedEatWhile? ByteClass.isBlank
    match mark.byte? with
    | none => return ⟨.endOfInput, some (.endOfInput mark.position), ⟨mark, mark, none⟩⟩
    | some b => (checkedRead? mark b).map (Reading.step mark)

/-! ## §2 Agreement -/

section
variable {mark : Cursor} (h : mark.InText)
include h

theorem checkedEmit?_eq (kind : Kind) (n : Nat) :
    checkedEmit? kind mark (mark.advanceBy n) = emit? kind mark (mark.advanceBy n) := by
  rw [checkedEmit?, emit?, (h.advanceBy n).sliceFrom?_eq h (source_advanceBy mark n).symm]

theorem checkedUpTo?_eq (kind : Kind) (n : Nat) :
    checkedUpTo? kind mark (mark.advanceBy n) = upTo? kind mark (mark.advanceBy n) := by
  rw [checkedUpTo?, upTo?, checkedEmit?_eq h]

theorem checkedComment?_eq : checkedComment? mark = comment? mark := by
  rw [checkedComment?, comment?, findLineEnd?, h.checkedFind?_eq, Option.bind_eq_bind,
    Option.bind_some]
  cases mark.find? ByteClass.isLineEnd 2 with
  | none =>
    simp only [h.checkedAdvanceBy?_eq, Option.bind_eq_bind, Option.bind_some, checkedUpTo?_eq h]
  | some distance =>
    simp only [h.checkedAdvanceBy?_eq, (h.advanceBy distance).checkedAdvanceBy?_eq,
      checkedEmit?_eq h, ← advance_eq_advanceBy, Option.bind_eq_bind, Option.bind_some]
    cases emit? .comment mark (mark.advanceBy distance) <;> rfl

theorem checkedQuoted?_eq : checkedQuoted? mark = quoted? mark := by
  rw [checkedQuoted?, quoted?, findByte?, h.checkedFind?_eq, Option.bind_eq_bind,
    Option.bind_some]
  cases mark.find? (· == ByteClass.quote) 1 with
  | none => rfl
  | some distance =>
    simp only [h.checkedAdvanceBy?_eq, Option.bind_eq_bind, Option.bind_some, checkedUpTo?_eq h]

/-- In the text, a checked reading differs from another only by how the character at its mark is
read. -/
theorem checkedRead?_eq (b : UInt8) (hchar : mark.checkedChar? = mark.char?) :
    checkedRead? mark b = read? mark b := by
  have hone (kind : Kind) : (mark.checkedAdvanceBy? 1).bind (checkedUpTo? kind mark) =
      upTo? kind mark mark.advance := by
    rw [h.checkedAdvanceBy?_eq, Option.bind_some, checkedUpTo?_eq h, ← advance_eq_advanceBy]
  have hnumber : (mark.checkedEatWhile? ByteClass.isDigit).bind (checkedUpTo? .number mark) =
      upTo? .number mark (mark.eatWhile ByteClass.isDigit) := by
    rw [h.checkedEatWhile?_eq, Option.bind_some, eatWhile_eq_advanceBy, checkedUpTo?_eq h]
  have hword : (do
      let second ← mark.checkedAdvanceBy? 1
      let stop ← second.checkedEatWhile? ByteClass.isWordPart
      checkedUpTo? .identifier mark stop) =
      upTo? .identifier mark (mark.advance.eatWhile ByteClass.isWordPart) := by
    simp only [h.checkedAdvanceBy?_eq, (h.advanceBy 1).checkedEatWhile?_eq, Option.bind_eq_bind,
      Option.bind_some, eatWhile_eq_advanceBy, advance_eq_advanceBy, advanceBy_advanceBy,
      checkedUpTo?_eq h]
  unfold checkedRead? read?
  rw [checkedComment?_eq h, checkedQuoted?_eq h, hone .divide, hword, hnumber, hchar]
  cases Kind.ofByte? b with
  | none => rfl
  | some kind => simp only [hone]

end

/-- Behind the blanks there is nothing, or a character. -/
theorem exists_eatWhile_isBlank (passed ahead : List Char) :
    ∃ gap rest,
      (between passed ahead).eatWhile ByteClass.isBlank = between (passed ++ gap) rest := by
  obtain ⟨gap, rest, rfl, hgap, hrest⟩ := exists_run CharClass.isBlank ahead
  exact ⟨gap, rest, eatWhile_isBlank hgap passed hrest⟩

theorem inText_between (passed ahead : List Char) : (between passed ahead).InText := by
  rw [InText, size, source_between, position_between, Text.utf8ByteSize_ofList]
  simp

/-- Between two characters a checked call is a call that is not checked. -/
theorem checkedStep?_eq_step? {s : Scanner} {passed ahead : List Char}
    (hs : s.cursor = between passed ahead) : s.checkedStep? = s.step? := by
  unfold checkedStep? step?
  cases s.failure with
  | some e => rfl
  | none =>
    obtain ⟨gap, rest, hskip⟩ := exists_eatWhile_isBlank passed ahead
    simp only [hs, (inText_between passed ahead).checkedEatWhile?_eq, Option.bind_eq_bind,
      Option.bind_some, hskip]
    cases rest with
    | nil => rw [byte?_between_nil]; rfl
    | cons c rest =>
      obtain ⟨b, bs, henc, _⟩ := Text.utf8EncodeChar_shape c
      have hchar : (between (passed ++ gap) (c :: rest)).checkedChar? =
          (between (passed ++ gap) (c :: rest)).char? := by
        rw [checkedChar?_between, char?_between]
      rw [byte?_between_cons henc]
      simp only [checkedRead?_eq (inText_between _ _) b hchar]
      congr 1

/-! ## §3 Standing -/

/-- The scanner stands between two characters of its text, and its last call began between two
characters no farther on. -/
def Upright (s : Scanner) : Prop :=
  ∃ front piece rest,
    s.mark = between front (piece ++ rest) ∧ s.cursor = between (front ++ piece) rest

theorem upright_ofString (source : String) : Upright (ofString source) :=
  ⟨[], [], source.toList, ofString_eq_between source, ofString_eq_between source⟩

/-- A call that reports something has not given up. -/
theorem step?_of_event {s : Scanner} (h : s.next.event ≠ none) : s.step? = some s.next := by
  unfold next at h ⊢
  cases hstep : s.step? with
  | none => simp [hstep] at h
  | some step => rfl

/-- Between two characters a call does not give up, and leaves the scanner between two
characters. -/
theorem step?_scanning (passed ahead : List Char) (mark : Cursor) :
    (scanning passed ahead mark).step? = some (scanning passed ahead mark).next ∧
      Upright (scanning passed ahead mark).next.after := by
  cases front ahead with
  | blank hgap =>
    have hnext := next_blank hgap passed mark
    exact ⟨step?_of_event (by simp [hnext]), hnext ▸ ⟨_, [], [], rfl, by simp [scanning]⟩⟩
  | @foreign gap rest c hgap hc =>
    have hnext := next_foreign hgap passed mark hc rest
    exact ⟨step?_of_event (by simp [hnext]), hnext ▸ ⟨passed ++ gap, [], c :: rest, rfl, by simp⟩⟩
  | @openQuote gap rest hgap hrest =>
    have hnext := next_openQuote hgap passed mark hrest
    exact ⟨step?_of_event (by simp [hnext]), hnext ▸ ⟨passed ++ gap, [], '"' :: rest, rfl, by simp⟩⟩
  | @token gap text rest k hgap htext hrest =>
    have hnext := next_token hgap passed mark htext hrest
    refine ⟨step?_of_event (by simp [hnext]), hnext ▸
      ⟨passed ++ gap, text ++ rest.take k.trailing, rest.drop k.trailing, ?_, ?_⟩⟩
    · simp [scanning]
    · simp [scanning]

/-- An upright scanner that has not failed has passed some characters and has others ahead. -/
theorem Upright.eq_scanning {s : Scanner} (h : s.Upright) (hs : s.failure = none) :
    ∃ passed ahead, s = scanning passed ahead s.mark := by
  obtain ⟨front, piece, rest, -, hcursor⟩ := h
  refine ⟨front ++ piece, rest, ?_⟩
  rw [scanning, ← hcursor, ← hs]

theorem Upright.step? {s : Scanner} (h : s.Upright) :
    s.step? = some s.next ∧ Upright s.next.after := by
  cases hs : s.failure with
  | some e =>
    refine ⟨by simp [next, Scanner.step?, hs], ?_⟩
    rw [next_of_failure s e hs]
    exact h
  | none =>
    obtain ⟨passed, ahead, hstate⟩ := h.eq_scanning hs
    rw [hstate]
    exact step?_scanning _ _ _

/-- No call that can be made of a scanner makes it stand inside a character. -/
theorem Upright.call {s : Scanner} (h : s.Upright) (c : Call) : Upright (s.call c) := by
  cases c with
  | load source => exact upright_ofString source
  | next => exact h.step?.2
  | item =>
    rw [Scanner.call, after_item?]
    exact h.step?.2
  | collect =>
    exact collectWithin_induction (fun _ hs => hs.step?.2) _ _ h

/-- What makes a call safe: the scanner and the start of its last token are on boundaries of the
text, in this order, and a call with every slice checked gives what a call gives. -/
structure Safe (s : Scanner) : Prop where
  mark_source : s.mark.source = s.source
  isBoundary_mark : s.cursor.isBoundary s.mark.position = true
  isBoundary_position : s.cursor.isBoundary s.cursor.position = true
  mark_le_position : s.mark.position ≤ s.cursor.position
  position_le : s.cursor.position ≤ s.source.utf8ByteSize
  checkedStep?_eq_next : s.checkedStep? = some s.next

theorem Upright.safe {s : Scanner} (h : s.Upright) : Safe s := by
  have hstep := h.step?.1
  obtain ⟨front, piece, rest, hmark, hcursor⟩ := h
  have hsource : s.mark.source = s.source := by
    rw [source, hmark, hcursor, source_between, source_between, List.append_assoc]
  have hinMark : s.mark.InText := hmark ▸ inText_between _ _
  have hinText : s.cursor.InText := hcursor ▸ inText_between _ _
  refine ⟨hsource, ?_, ?_, ?_, hinText, ?_⟩
  · rw [hinMark.isBoundary_position hsource.symm, hmark, isOnBoundary_between]
  · rw [hinText.isBoundary_position rfl, hcursor, isOnBoundary_between]
  · rw [hmark, hcursor]
    simp
  · rw [checkedStep?_eq_step? hcursor, hstep]

/-! ## §4 Benches -/

/-- What can be done with scanners side by side. -/
inductive Action where
  /-- Adds a scanner without a text. -/
  | blank
  /-- Adds a scanner at the start of a text. -/
  | start (source : String)
  /-- Calls the scanner with a number. -/
  | call (i : Nat) (c : Call)
  /-- Adds a copy of the scanner with a number. -/
  | copy (i : Nat)

/-- The scanners after one thing more is done. -/
def act (scanners : List Scanner) : Action → List Scanner
  | .blank => scanners ++ [default]
  | .start source => scanners ++ [ofString source]
  | .call i c => scanners.modify i fun s => s.call c
  | .copy i => scanners ++ scanners[i]?.toList

/-- The scanners that are there after some things have been done. -/
def bench (actions : List Action) : List Scanner :=
  actions.foldl act []

theorem upright_act {scanners : List Scanner} (h : ∀ s ∈ scanners, Upright s) (a : Action) :
    ∀ s ∈ act scanners a, Upright s := by
  intro s hs
  cases a with
  | blank =>
    rcases List.mem_append.mp hs with hs | hs
    · exact h s hs
    · exact List.mem_singleton.mp hs ▸ upright_ofString ""
  | start source =>
    rcases List.mem_append.mp hs with hs | hs
    · exact h s hs
    · exact List.mem_singleton.mp hs ▸ upright_ofString source
  | call i c =>
    obtain ⟨j, hj⟩ := List.mem_iff_getElem?.mp hs
    rw [act, List.getElem?_modify] at hj
    obtain ⟨s', hs', rfl⟩ := Option.map_eq_some_iff.mp hj
    have hup := h s' (List.mem_of_getElem? hs')
    split
    · exact hup.call c
    · exact hup
  | copy i =>
    rcases List.mem_append.mp hs with hs | hs
    · exact h s hs
    · exact h s (List.mem_of_getElem? (by simpa using hs))

theorem upright_bench (actions : List Action) : ∀ s ∈ bench actions, Upright s := by
  have hfold : ∀ scanners : List Scanner, (∀ s ∈ scanners, Upright s) →
      ∀ s ∈ actions.foldl act scanners, Upright s := by
    induction actions with
    | nil => exact fun _ h => h
    | cons a actions ih => exact fun _ h => ih _ (upright_act h a)
  exact hfold [] (by simp)

end Scanner

open Scanner

/-- **No call asks for a slice that is not there.** However scanners are made, loaded, called, run
to the end and copied, each stands on a character boundary of its text, no earlier than where its
last token began, and its next call can take every slice by offsets and gives the same. -/
theorem bench_safe (actions : List Action) : ∀ s ∈ bench actions, Safe s :=
  fun s hs => (upright_bench actions s hs).safe

/-- A copy goes on to a comment of longer characters and to one that no token begins with, while the
scanner it was made of stays where it was. -/
theorem bench_safe_copied :
    let source := "//é\ré"
    let actions : List Action := [.start source, .copy 0, .call 1 .item, .call 1 .next]
    let s := ((ofString source).call .item).call .next
    bench actions = [ofString source, s] ∧ s ∈ bench actions ∧ Safe s ∧
      (s.mark.position, s.cursor.position) = (5, 5) ∧
      (s.checkedStep?.map Step.outcome) = some (.failed (.unexpected 5 'é')) := by
  intro source actions s
  have hbench : bench actions = [ofString source, s] := rfl
  have hmem : s ∈ bench actions := by simp [hbench]
  have hsafe := bench_safe actions s hmem
  refine ⟨hbench, hmem, hsafe, by decide +kernel, ?_⟩
  rw [hsafe.checkedStep?_eq_next]
  decide +kernel

end Lexeme
