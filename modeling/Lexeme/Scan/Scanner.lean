/-
Lexeme.Scan.Scanner — reading a text token by token.

A scanner is either scanning or failed. It skips blanks and reads one token a
call, until the end of its text, which it reports as often as it is asked, or
until the first error, which it keeps: a failed scanner gives the same error
again until another text is loaded.

  §1 Session   — the scanner and its start.
  §2 Reading   — one token from a given place, by its first byte.
  §3 Calls     — `next`, and `item?` for a caller that wants each error once.
  §4 Laws      — a failed scanner changes no more (`next_of_failure`).
-/
import Lexeme.Cursor
import Lexeme.Scan.Event

namespace Lexeme

/-! ## §1 Session -/

/-- A scan under way. -/
structure Scanner where
  cursor : Cursor
  /-- Where the last token, error or end of input was met. -/
  mark : Cursor
  /-- The error that ended the scan. -/
  failure : Option ScanError
deriving DecidableEq, Repr

/-- What one call of a scanner finds. -/
inductive Outcome where
  | token (t : Token)
  | endOfInput
  | failed (e : ScanError)
deriving DecidableEq, Repr

/-- One call of a scanner: its outcome, what it reports, and the scanner after it. -/
structure Step where
  outcome : Outcome
  event : Option ScanEvent
  after : Scanner
deriving DecidableEq, Repr

namespace Scanner

/-- The scanner at the start of a text. -/
def ofString (source : String) : Scanner where
  cursor := Cursor.ofString source
  mark := Cursor.ofString source
  failure := none

/-- Puts another text in, and forgets the position and any failure. -/
def load (_ : Scanner) (source : String) : Scanner :=
  ofString source

/-- The event of loading a text. -/
def loading (source : String) : ScanEvent :=
  .loaded source.utf8ByteSize

/-- Without a text a scanner is at the end of an empty one. -/
instance : Inhabited Scanner := ⟨ofString ""⟩

/-- The text that is scanned. -/
def source (s : Scanner) : String :=
  s.cursor.source

/-- Whether the scan has failed. -/
def isFailed (s : Scanner) : Bool :=
  s.failure.isSome

/-! ## §2 Reading -/

/-- What stands at a place where a token should start. -/
inductive Reading where
  /-- A token, and the cursor behind it. -/
  | token (t : Token) (after : Cursor)
  /-- No token. -/
  | error (e : ScanError)
deriving DecidableEq, Repr

/-- The token of a kind from `mark` to `stop`. -/
def emit? (kind : Kind) (mark stop : Cursor) : Option Token :=
  (stop.since? mark).map fun text => ⟨kind, text, mark.position⟩

/-- The token of a kind from `mark` to `stop`, with the scan going on behind it. -/
def upTo? (kind : Kind) (mark stop : Cursor) : Option Reading :=
  (emit? kind mark stop).map fun t => .token t stop

/-- A comment runs to the end of its line. The first byte of the line end is passed with it,
though it is no part of the token. -/
def comment? (mark : Cursor) : Option Reading :=
  match mark.findLineEnd? 2 with
  | some distance =>
    let stop := mark.advanceBy distance
    (emit? .comment mark stop).map fun t => .token t stop.advance
  | none => upTo? .comment mark (mark.advanceBy mark.size)

/-- A quoted string runs to the next quote, whatever stands between. -/
def quoted? (mark : Cursor) : Option Reading :=
  match mark.findByte? ByteClass.quote 1 with
  | some distance => upTo? .quote mark (mark.advanceBy (distance + 1))
  | none => some (.error (.openQuote mark.position))

/-- Reads what stands at `mark`, whose byte is `b`. -/
def read? (mark : Cursor) (b : UInt8) : Option Reading :=
  if b == ByteClass.slash then
    if mark.peek? 1 == some ByteClass.slash then comment? mark
    else upTo? .divide mark mark.advance
  else
    match Kind.ofByte? b with
    | some kind => upTo? kind mark mark.advance
    | none =>
      if ByteClass.isWordStart b then
        upTo? .identifier mark (mark.advance.eatWhile ByteClass.isWordPart)
      else if ByteClass.isDigit b then upTo? .number mark (mark.eatWhile ByteClass.isDigit)
      else if b == ByteClass.quote then quoted? mark
      else mark.char?.map fun found => .error (.unexpected mark.position found)

/-! ## §3 Calls -/

/-- One call; `none` if a piece of text would have to be cut inside a character. -/
def step? (s : Scanner) : Option Step :=
  match s.failure with
  | some e => some ⟨.failed e, none, s⟩
  | none =>
    let mark := s.cursor.eatWhile ByteClass.isBlank
    match mark.byte? with
    | none => some ⟨.endOfInput, some (.endOfInput mark.position), ⟨mark, mark, none⟩⟩
    | some b =>
      (read? mark b).map fun
        | .token t after => ⟨.token t, some (.token t), ⟨after, mark, none⟩⟩
        | .error e => ⟨.failed e, some (.failed e), ⟨mark, mark, some e⟩⟩

/-- One call. A scanner that was made by loading a text never has to cut inside a character, so
the default is not reached from there. -/
def next (s : Scanner) : Step :=
  s.step?.getD ⟨.endOfInput, none, s⟩

/-- One call that gives each token and then at most one error; `none` at the end of the text and
after the error. -/
def item? (s : Scanner) : Option (Except ScanError Token) × Scanner :=
  if s.isFailed then (none, s)
  else
    let step := s.next
    match step.outcome with
    | .token t => (some (.ok t), step.after)
    | .endOfInput => (none, step.after)
    | .failed e => (some (.error e), step.after)

/-! ## §4 Laws -/

/-- A failed scanner gives its error again, reports nothing and stays as it is. -/
theorem next_of_failure (s : Scanner) (e : ScanError) (h : s.failure = some e) :
    s.next = ⟨.failed e, none, s⟩ := by
  simp [next, step?, h]

/-- To a caller that has had its error, a failed scanner has nothing left. -/
theorem item?_of_failure (s : Scanner) (e : ScanError) (h : s.failure = some e) :
    s.item? = (none, s) := by
  simp [item?, isFailed, h]

end Scanner
end Lexeme
