/-
Lexeme.Proofs.Scan.Reconstruction — nothing of a text is lost or made up.

The tokens of a run lie in its text one behind the other, each is a piece of
the text, and between them is nothing but blanks (`Tiles`); so gaps and tokens
together are the text again, as far as the run went (`weave`). Each token is
spelt as its kind asks, and ends only where it could not go on. All of this
holds of runs that fail as well, up to the place of the error, and is what
`run_reconstructs` says.

  §1 Pieces — the bytes between two offsets.
  §2 Tiles  — tokens in order with blanks between, and the text woven of them.
  §3 Runs   — every run, front by front.
-/
import Lexeme.Proofs.Scan.Run

namespace Lexeme

/-! ## §1 Pieces -/

namespace Text

/-- The bytes from one offset to another. -/
def piece (bs : List UInt8) (start stop : Nat) : List UInt8 :=
  (bs.drop start).take (stop - start)

theorem piece_append (bs : List UInt8) {i j k : Nat} (hij : i ≤ j) (hjk : j ≤ k) :
    piece bs i j ++ piece bs j k = piece bs i k := by
  have hj : bs.drop j = (bs.drop i).drop (j - i) := by
    rw [List.drop_drop, Nat.add_sub_cancel' hij]
  have hk : k - i = (j - i) + (k - j) := by omega
  rw [piece, piece, piece, hj, hk, List.take_add]

theorem piece_zero (bs : List UInt8) (stop : Nat) : piece bs 0 stop = bs.take stop := rfl

theorem piece_encode (front mid back : List Char) :
    piece (encode (front ++ (mid ++ back))) (encode front).length (encode (front ++ mid)).length =
      encode mid := by
  simp [piece]

end Text

/-! ## §2 Tiles -/

/-- Tokens of a text in their order, from one offset to another: each is a piece of the text and
not empty, and before, between and behind them are blanks. -/
def Tiles (source : String) : Nat → List Token → Nat → Prop
  | start, [], stop =>
    start ≤ stop ∧ ∀ b ∈ Text.piece (Text.bytes source) start stop, ByteClass.isBlank b = true
  | start, t :: ts, stop =>
    start ≤ t.start ∧
    (∀ b ∈ Text.piece (Text.bytes source) start t.start, ByteClass.isBlank b = true) ∧
    t.text ≠ "" ∧ (Cursor.ofString source).slice? t.start t.stop = some t.text ∧
    Tiles source t.stop ts stop

/-- The gaps before, between and behind tokens, with the texts of the tokens in their places. -/
def weave (source : String) : Nat → List Token → Nat → List UInt8
  | start, [], stop => Text.piece (Text.bytes source) start stop
  | start, t :: ts, stop =>
    Text.piece (Text.bytes source) start t.start ++ Text.bytes t.text ++
      weave source t.stop ts stop

/-- A token of a text that is spelt as its kind asks and could not be longer where it stands. -/
structure WellCut (source : String) (t : Token) : Prop where
  spelling : Spelling t.kind t.text.toList
  longest : ∀ b ∈ (Text.bytes source)[t.stop]?, t.kind.goesOnByte b = false

theorem Tiles.le {source : String} {start stop : Nat} {ts : List Token}
    (h : Tiles source start ts stop) : start ≤ stop := by
  induction ts generalizing start with
  | nil => exact h.1
  | cons t ts ih =>
    obtain ⟨hle, -, -, -, hrest⟩ := h
    have : t.start ≤ t.stop := Nat.le_add_right _ _
    have := ih hrest
    omega

theorem bytes_of_slice? {source text : String} {start stop : Nat}
    (h : (Cursor.ofString source).slice? start stop = some text) :
    Text.bytes text = Text.piece (Text.bytes source) start stop := by
  unfold Cursor.slice? at h
  split at h
  · exact Text.bytes_of_ofBytes? h
  · simp at h

theorem weave_of_tiles {source : String} {start stop : Nat} {ts : List Token}
    (h : Tiles source start ts stop) :
    weave source start ts stop = Text.piece (Text.bytes source) start stop := by
  induction ts generalizing start with
  | nil => rfl
  | cons t ts ih =>
    obtain ⟨hle, -, -, hslice, hrest⟩ := h
    have hstop : t.start ≤ t.stop := Nat.le_add_right _ _
    rw [weave, ih hrest, bytes_of_slice? hslice, Text.piece_append _ hle hstop,
      Text.piece_append _ (Nat.le_trans hle hstop) hrest.le]

/-! ## §3 Runs -/

namespace Scanner

/-- Where a run over a text stopped: at its end, or where it failed. -/
def Run.stop (source : String) (r : Run) : Nat :=
  match r.failure with
  | none => source.utf8ByteSize
  | some e => e.offset

theorem stop_tokenBehind (passed : List Char) (k : Kind) (text : List Char) :
    (tokenBehind passed k text).stop = (Text.encode (passed ++ text)).length := by
  simp [tokenBehind, Token.stop]

section
variable (front rest : List Char) {gap text : List Char}

theorem piece_blank (hgap : ∀ c ∈ gap, CharClass.isBlank c = true) :
    ∀ b ∈ Text.piece (Text.bytes (String.ofList (front ++ (gap ++ rest))))
      (Text.encode front).length (Text.encode (front ++ gap)).length,
      ByteClass.isBlank b = true := by
  rw [Text.bytes_ofList, Text.piece_encode]
  exact CharClass.isBlank_agree.of_mem_encode hgap

theorem tiles_nil (hgap : ∀ c ∈ gap, CharClass.isBlank c = true) :
    Tiles (String.ofList (front ++ (gap ++ rest))) (Text.encode front).length []
      (Text.encode (front ++ gap)).length :=
  ⟨by simp, piece_blank front rest hgap⟩

theorem tiles_cons {k : Kind} {ts : List Token} {stop : Nat}
    (hgap : ∀ c ∈ gap, CharClass.isBlank c = true) (htext : text ≠ [])
    (hrest : Tiles (String.ofList (front ++ (gap ++ (text ++ rest))))
      (Text.encode (front ++ gap ++ text)).length ts stop) :
    Tiles (String.ofList (front ++ (gap ++ (text ++ rest)))) (Text.encode front).length
      (tokenBehind (front ++ gap) k text :: ts) stop := by
  have hslice := Cursor.slice?_ofString (front ++ gap) text rest
  rw [← stop_tokenBehind (front ++ gap) k text, List.append_assoc] at hslice
  refine ⟨by simp [tokenBehind], piece_blank front _ hgap, ?_, hslice, ?_⟩
  · simpa [tokenBehind] using htext
  · rwa [stop_tokenBehind]

theorem wellCut_tokenBehind {k : Kind} (htext : Spelling k text)
    (hrest : ∀ c ∈ rest.head?, k.goesOn c = false) :
    WellCut (String.ofList (front ++ (text ++ rest))) (tokenBehind front k text) where
  spelling := by
    show Spelling k (String.ofList text).toList
    rwa [String.toList_ofList]
  longest := by
    have hget : (Text.bytes (String.ofList (front ++ (text ++ rest))))[
        (Text.encode (front ++ text)).length]? = (Text.encode rest).head? := by
      rw [Text.bytes_ofList, ← List.append_assoc, Text.encode_append (front ++ text),
        List.getElem?_append_right (Nat.le_refl _), Nat.sub_self, List.head?_eq_getElem?]
    rw [stop_tokenBehind, hget]
    exact Kind.goesOnByte_of_mem_head?_encode hrest

end

/-- What is left to read behind a token lies in the text like everything read before. -/
theorem tiles_scanning (passed ahead : List Char) :
    ∀ mark : Cursor,
      let source := String.ofList (passed ++ ahead)
      let r := (scanning passed ahead mark).run
      r.stop source ≤ source.utf8ByteSize ∧
        Tiles source (Text.encode passed).length r.tokens (r.stop source) ∧
        ∀ t ∈ r.tokens, WellCut source t := by
  induction passed, ahead using textInduction with
  | blank passed gap hgap =>
    intro mark
    have htiles := tiles_nil passed [] hgap
    rw [run_blank hgap]
    refine ⟨Nat.le_refl _, ?_, by simp⟩
    simpa [Run.stop] using htiles
  | foreign passed gap c rest hgap hc =>
    intro mark
    have htiles := tiles_nil passed (c :: rest) hgap
    rw [run_foreign hgap _ mark hc]
    refine ⟨?_, ?_, by simp⟩
    · simp [Run.stop, ScanError.offset]
    · simpa [Run.stop, ScanError.offset] using htiles
  | openQuote passed gap rest hgap hrest =>
    intro mark
    have htiles := tiles_nil passed ('"' :: rest) hgap
    rw [run_openQuote hgap _ mark hrest]
    refine ⟨?_, ?_, by simp⟩
    · simp [Run.stop, ScanError.offset]
    · simpa [Run.stop, ScanError.offset] using htiles
  | token passed gap text rest k hgap htext hrest ih =>
    intro mark
    have hsource : passed ++ gap ++ text ++ rest = passed ++ (gap ++ (text ++ rest)) := by simp
    have hwellCut := wellCut_tokenBehind (passed ++ gap) rest htext hrest
    have hrun := ih mark
    rw [hsource] at hrun
    rw [List.append_assoc passed] at hwellCut
    obtain ⟨hstop, htiles, hcut⟩ := hrun
    rw [run_text hgap passed mark htext hrest mark]
    refine ⟨hstop, tiles_cons passed rest hgap htext.ne_nil htiles, ?_⟩
    intro t ht
    rcases List.mem_cons.mp ht with rfl | ht
    · exact hwellCut
    · exact hcut t ht

/-- **The tokens of a run are the text.** They lie in it in their order, gaps and texts woven
together are what was read of it, up to its end or the error, and each token is spelt as its kind
asks and as long as it can be. -/
theorem run_reconstructs (source : String) :
    let r := (ofString source).run
    let stop := r.stop source
    stop ≤ source.utf8ByteSize ∧
      Tiles source 0 r.tokens stop ∧
      weave source 0 r.tokens stop = (Text.bytes source).take stop ∧
      ∀ t ∈ r.tokens, WellCut source t := by
  have hrun := tiles_scanning [] source.toList (Cursor.ofString source)
  rw [List.nil_append, String.ofList_toList, ← ofString_eq_scanning] at hrun
  obtain ⟨hstop, htiles, hcut⟩ := hrun
  refine ⟨hstop, htiles, ?_, hcut⟩
  rw [← Text.piece_zero]
  exact weave_of_tiles htiles

end Scanner
end Lexeme
