/-
Lexeme.Proofs.Scan.Session — a scanner and whatever is asked of it.

A session is a sequence of calls: texts are loaded, tokens asked for one by one
or all at once, in any order and also after a failure. None of them takes the
cursor anywhere but forward over the text that was loaded last (`OnCourse`), so
what holds of every cursor holds of the cursor of every session:
`session_located` says where it stands.

  §1 Calls    — the calls, each on its own.
  §2 Sessions — what no sequence of calls can change.
  §3 Location — line and column, of moves and of sessions.
-/
import Lexeme.Proofs.Cursor.Location
import Lexeme.Proofs.Scan.Run

namespace Lexeme

namespace Scanner

open Cursor

/-! ## §1 Calls -/

/-- What can be asked of a scanner. -/
inductive Call where
  | load (source : String)
  | next
  | item
  | collect

def call (s : Scanner) : Call → Scanner
  | .load source => s.load source
  | .next => s.next.after
  | .item => s.item?.2
  | .collect => s.collect.2

def calls (s : Scanner) (cs : List Call) : Scanner :=
  cs.foldl call s

theorem after_item? (s : Scanner) : s.item?.2 = s.next.after := by
  cases hs : s.failure with
  | some e => rw [item?_of_failure s e hs, next_of_failure s e hs]
  | none =>
    obtain ⟨_, ⟨t, htok, _⟩ | ⟨hend, _⟩ | ⟨e, hfail, _⟩⟩ := next_cases s hs
    · rw [item?_of_token htok]
    · rw [item?_of_endOfInput hs hend]
    · rw [item?_of_failed hs hfail]

/-- What no single call can change, gathering cannot change. -/
theorem collectWithin_induction {P : Scanner → Prop} (hnext : ∀ s, P s → P s.next.after)
    (n : Nat) (got : List Token) {s : Scanner} (hs : P s) : P (collectWithin n got s).2 := by
  induction n generalizing got s with
  | zero => exact hs
  | succ n ih =>
    have hitem : P s.item?.2 := by
      rw [after_item?]
      exact hnext s hs
    rw [collectWithin]
    split
    · rename_i heq
      rwa [heq] at hitem
    · rename_i heq
      rwa [heq] at hitem
    · rename_i heq
      rw [heq] at hitem
      exact ih _ hitem

theorem reaches_collectWithin (n : Nat) (got : List Token) (s : Scanner) :
    s.cursor.Reaches (collectWithin n got s).2.cursor := by
  have hnext : ∀ s' : Scanner, s.cursor.Reaches s'.cursor →
      s.cursor.Reaches s'.next.after.cursor :=
    fun s' h => h.trans (reaches_next s')
  exact collectWithin_induction hnext n got (.refl _)

/-! ## §2 Sessions -/

/-- The cursor is one that moves over the text lead to. -/
def OnCourse (s : Scanner) : Prop :=
  (Cursor.ofString s.source).Reaches s.cursor

theorem onCourse_ofString (source : String) : OnCourse (ofString source) :=
  .refl _

theorem OnCourse.of_reaches {s s' : Scanner} (h : OnCourse s)
    (hreaches : s.cursor.Reaches s'.cursor) : OnCourse s' := by
  have hsource : s'.source = s.source := by
    obtain ⟨n, hn⟩ := hreaches
    rw [source, source, hn, source_advanceBy]
  rw [OnCourse, hsource]
  exact h.trans hreaches

/-- Loading starts over, and every other call goes on from where the cursor is. -/
theorem OnCourse.call {s : Scanner} (h : OnCourse s) (c : Call) : OnCourse (s.call c) := by
  cases c with
  | load source => exact onCourse_ofString source
  | next => exact h.of_reaches (reaches_next s)
  | item =>
    refine h.of_reaches ?_
    rw [Scanner.call, after_item?]
    exact reaches_next s
  | collect => exact h.of_reaches (reaches_collectWithin _ _ s)

theorem OnCourse.calls {s : Scanner} (h : OnCourse s) (cs : List Call) : OnCourse (s.calls cs) := by
  induction cs generalizing s with
  | nil => exact h
  | cons c cs ih => exact ih (h.call c)

end Scanner

/-! ## §3 Location -/

/-- A cursor that has line and column of the place it stands at, neither of them too large for
32 bits. -/
structure Cursor.WithinWord (source : String) (c : Cursor) : Prop
    extends Cursor.Located source c where
  line_add_column_le : c.line + c.column ≤ c.position + 2
  line_lt : c.line < UInt32.size
  column_lt : c.column < UInt32.size

theorem Cursor.withinWord_of_reaches {source : String} {c : Cursor}
    (hsize : source.utf8ByteSize ≤ UInt32.size - 2) (h : (Cursor.ofString source).Reaches c) :
    Cursor.WithinWord source c := by
  have hloc := Cursor.located_of_reaches h
  have hsum := hloc.line_add_column_le
  have hpos := hloc.position_le
  have hline : 1 ≤ c.line := hloc.line_eq ▸ Text.one_le_lineAt _ _
  have hword : UInt32.size = 4294967296 := rfl
  have hcolumn : 1 ≤ c.column := hloc.column_eq ▸ Text.one_le_columnAt _ _
  exact { hloc with line_add_column_le := hsum, line_lt := by omega, column_lt := by omega }

/-- **Line and column are those of the place.** However a cursor has been moved, and whatever a
scanner has been asked for, they follow from the text and the position alone, and both counters
stay below the word size. Moves count byte by byte, so on their way they do too. -/
theorem session_located (source : String) (hsize : source.utf8ByteSize ≤ UInt32.size - 2) :
    (∀ ms : List Cursor.Move, ((Cursor.ofString source).moves ms).WithinWord source) ∧
    ∀ (before : String) (cs : List Scanner.Call),
      let s := (Scanner.ofString before).calls cs
      s.source = source → s.cursor.WithinWord source := by
  constructor
  · intro ms
    exact Cursor.withinWord_of_reaches hsize (Cursor.reaches_of_moves _ ms)
  · intro before cs s hs
    have hcourse := (Scanner.onCourse_ofString before).calls cs
    exact Cursor.withinWord_of_reaches hsize (hs ▸ hcourse)

/-- Moves that stop between CR and LF and inside a character, and a session over the same text. -/
theorem session_located_split :
    let source := "a\r\né"
    let c := (Cursor.ofString source).moves [.advanceBy 2, .advance, .advance]
    let s := (Scanner.ofString "\"").calls [.next, .load source, .item, .next]
    source.utf8ByteSize ≤ UInt32.size - 2 ∧ s.source = source ∧
      (c.position, c.line, c.column) = (4, 2, 2) ∧ c.WithinWord source ∧
      (s.cursor.position, s.cursor.line, s.cursor.column) = (3, 2, 1) ∧
      s.cursor.WithinWord source := by
  have hsize : "a\r\né".utf8ByteSize ≤ UInt32.size - 2 := by decide
  obtain ⟨hmoves, hcalls⟩ := session_located "a\r\né" hsize
  exact ⟨hsize, by decide +kernel, by decide +kernel, hmoves _,
    by decide +kernel, hcalls "\"" _ (by decide +kernel)⟩

end Lexeme
