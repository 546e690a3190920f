/-
Lexeme.Proofs.Report.Comments — to a listing, a comment is as good as blanks.

A text is listed without its comments just as it is listed in full when every byte of
every comment is overwritten by a blank (`comments_as_blanks`). Which bytes these are is
told by the tokens of a run alone, so the text is overwritten from outside, with nothing
known of how it is scanned; that the outcome is the text of `Blanked` is what the first
section is about.

  §1 Bytes    — the bytes of comments, and a text with blanks for them.
  §2 Listings — what both texts are listed as.
-/
import Lexeme.Proofs.Report.Blanking
import Lexeme.Proofs.Scan.Reconstruction

namespace Lexeme

open Scanner

/-! ## §1 Bytes -/

/-- Bytes that stand from an offset on, with blanks for those that are hidden. -/
def Text.blankOut (hidden : Nat → Bool) (start : Nat) (bs : List UInt8) : List UInt8 :=
  bs.mapIdx fun i b => if hidden (start + i) then 0x20 else b

namespace Text

variable {hidden hidden' : Nat → Bool} {start : Nat} {bs : List UInt8}

theorem blankOut_append (hidden : Nat → Bool) (start : Nat) (bs cs : List UInt8) :
    blankOut hidden start (bs ++ cs) =
      blankOut hidden start bs ++ blankOut hidden (start + bs.length) cs := by
  rw [blankOut, List.mapIdx_append]
  congr 2
  funext i b
  rw [Nat.add_comm i, Nat.add_assoc]

theorem blankOut_congr (h : ∀ i, start ≤ i → hidden i = hidden' i) :
    blankOut hidden start bs = blankOut hidden' start bs := by
  unfold blankOut
  congr 1
  funext i b
  rw [h (start + i) (Nat.le_add_right start i)]

theorem blankOut_of_shown (h : ∀ i, start ≤ i → i < start + bs.length → hidden i = false) :
    blankOut hidden start bs = bs := by
  refine List.ext_getElem (by simp [blankOut]) fun i _ hi => ?_
  simp [blankOut, h (start + i) (by omega) (by omega)]

theorem blankOut_of_hidden (h : ∀ i, start ≤ i → i < start + bs.length → hidden i = true) :
    blankOut hidden start bs = List.replicate bs.length 0x20 := by
  refine List.ext_getElem (by simp [blankOut]) fun i hi _ => ?_
  have hlength : i < bs.length := by simpa [blankOut] using hi
  simp [blankOut, h (start + i) (by omega) (by omega)]

end Text

/-- Whether the byte at an offset belongs to a comment. -/
def inComment (ts : List Token) (offset : Nat) : Bool :=
  ts.any fun t => t.kind == .comment && decide (t.start ≤ offset ∧ offset < t.stop)

theorem inComment_of_lt {ts : List Token} {offset : Nat} (h : ∀ t ∈ ts, offset < t.start) :
    inComment ts offset = false := by
  refine List.any_eq_false.mpr fun t ht => ?_
  simp [Nat.not_le.mpr (h t ht)]

theorem inComment_cons_of_not_mem {t : Token} {offset : Nat}
    (h : t.kind = .comment → ¬ (t.start ≤ offset ∧ offset < t.stop)) (ts : List Token) :
    inComment (t :: ts) offset = inComment ts offset := by
  by_cases hk : t.kind = .comment
  · simp only [inComment, List.any_cons, decide_eq_false (h hk), Bool.and_false, Bool.false_or]
  · simp [inComment, hk]

theorem inComment_cons_of_mem {t : Token} {offset : Nat} (hk : t.kind = .comment)
    (hstart : t.start ≤ offset) (hstop : offset < t.stop) (ts : List Token) :
    inComment (t :: ts) offset = true := by
  simp [inComment, hk, hstart, hstop]

section
variable {passed gap text rest : List Char} {k : Kind} {ts : List Token}

/-- What a token does to the blanks in front of it, to its own bytes and to those behind it. -/
theorem blankOut_token (hts : ∀ t ∈ ts, (Text.encode (passed ++ gap ++ text)).length ≤ t.start) :
    Text.blankOut (inComment (tokenBehind (passed ++ gap) k text :: ts))
        (Text.encode passed).length (Text.encode (gap ++ (text ++ rest))) =
      Text.encode gap ++
        ((if k = .comment then Text.encode (blanks text) else Text.encode text) ++
          Text.blankOut (inComment ts) (Text.encode (passed ++ gap ++ text)).length
            (Text.encode rest)) := by
  let t := tokenBehind (passed ++ gap) k text
  have hstart : t.start = (Text.encode passed).length + (Text.encode gap).length := by
    simp [t, tokenBehind]
  have hstop : t.stop = t.start + (Text.encode text).length := by
    rw [stop_tokenBehind, hstart]
    simp [Nat.add_assoc]
  have hend : (Text.encode (passed ++ gap ++ text)).length = t.stop := by
    rw [stop_tokenBehind]
  rw [hend] at hts ⊢
  have hlater {i : Nat} (hi : i < t.stop) : inComment ts i = false :=
    inComment_of_lt fun u hu => Nat.lt_of_lt_of_le hi (hts u hu)
  have hgap : Text.blankOut (inComment (t :: ts)) (Text.encode passed).length (Text.encode gap) =
      Text.encode gap := by
    refine Text.blankOut_of_shown fun i _ hi => ?_
    rw [inComment_cons_of_not_mem (fun _ => by omega), hlater (by omega)]
  have htext : Text.blankOut (inComment (t :: ts)) t.start (Text.encode text) =
      if k = .comment then Text.encode (blanks text) else Text.encode text := by
    split
    · rename_i hk
      rw [encode_blanks]
      exact Text.blankOut_of_hidden fun i hi hi' =>
        inComment_cons_of_mem hk hi (by omega) ts
    · rename_i hk
      refine Text.blankOut_of_shown fun i _ hi => ?_
      rw [inComment_cons_of_not_mem (fun heq => absurd heq hk), hlater (by omega)]
  have hrest : Text.blankOut (inComment (t :: ts)) t.stop (Text.encode rest) =
      Text.blankOut (inComment ts) t.stop (Text.encode rest) :=
    Text.blankOut_congr fun i hi => inComment_cons_of_not_mem (fun _ => by omega) ts
  rw [Text.encode_append, Text.encode_append, Text.blankOut_append, Text.blankOut_append, hgap,
    ← hstart, htext, ← hstop, hrest]

end

/-- The text with blanks for its comments is there, and its bytes are those of the text with blanks
for those of the comments. -/
theorem exists_blanked (passed ahead : List Char) :
    ∀ (mark : Cursor), ∃ ahead', Blanked ahead ahead' ∧
      Text.encode ahead' = Text.blankOut (inComment (scanning passed ahead mark).run.tokens)
        (Text.encode passed).length (Text.encode ahead) := by
  -- a run without tokens has no comments
  have hnone (start : Nat) (bs : List UInt8) : bs = Text.blankOut (inComment []) start bs :=
    (Text.blankOut_of_shown fun _ _ _ => rfl).symm
  induction passed, ahead using textInduction with
  | blank passed gap hgap =>
    intro mark
    rw [run_blank hgap]
    exact ⟨gap, .blank hgap, hnone _ _⟩
  | foreign passed gap c rest hgap hc =>
    intro mark
    rw [run_foreign hgap passed mark hc]
    exact ⟨_, .foreign hgap hc, hnone _ _⟩
  | openQuote passed gap rest hgap hrest =>
    intro mark
    rw [run_openQuote hgap passed mark hrest]
    exact ⟨_, .openQuote hgap hrest, hnone _ _⟩
  | token passed gap text rest k hgap htext hrest ih =>
    intro mark
    obtain ⟨rest', hblanked, hbytes⟩ := ih mark
    rw [run_text hgap passed mark htext hrest mark, Run.cons,
      blankOut_token (length_passed_le_start _ _ mark), ← hbytes]
    by_cases hk : k = .comment
    · subst hk
      exact ⟨_, .comment hgap htext hrest hblanked, by simp⟩
    · exact ⟨_, .code hgap htext hrest hk hblanked, by simp [hk]⟩

/-! ## §2 Listings -/

theorem Scanner.Run.Bares.listing {r r' : Run} (h : r.Bares r') (name : String) :
    r'.listing name true = r.listing name false := by
  unfold Run.listing
  rw [h.failure, Run.listed_true, h.tokens]
  cases hr : r.failure with
  | none => rfl
  | some e =>
    obtain ⟨hline, hcolumn⟩ := Place.mk.inj (h.place e hr)
    refine congrArg Except.error ?_
    simp [Diagnostic.ofScanner, hline, hcolumn]

/-- **Comments are blanks.** Put a blank in the place of every byte of every comment that a scan
gives, and the listing of what is left is the listing of the text without its comments: the same
lines, and then the same number of them or the same error at the same offset, line and column. -/
theorem Listing.comments_as_blanks (source : String) :
    let ts := (ofString source).run.tokens
    ∃ blanked : String, Text.bytes blanked = Text.blankOut (inComment ts) 0 (Text.bytes source) ∧
      ∀ name format,
        let bare := Listing.write name source format false
        let full := Listing.write name blanked format true
        full.output = bare.output ∧ full.result = bare.result := by
  intro ts
  obtain ⟨ahead', hblanked, hbytes⟩ := exists_blanked [] source.toList (Cursor.ofString source)
  rw [← ofString_eq_scanning, ← Text.bytes_eq_encode] at hbytes
  have hbares := hblanked.bares_run [] [] (Cursor.ofString source)
    (Cursor.ofString (.ofList ahead')) (.refl _ _)
  rw [← ofString_eq_scanning] at hbares
  have hscanning : ofString (.ofList ahead') =
      scanning [] ahead' (Cursor.ofString (.ofList ahead')) := by
    rw [ofString_eq_scanning, String.toList_ofList]
  rw [← hscanning] at hbares
  refine ⟨.ofList ahead', ?_, fun name format => ⟨?_, ?_⟩⟩
  · rw [Text.bytes_ofList]
    exact hbytes
  · rw [Listing.output_write, Listing.output_write, Run.listed_true, hbares.tokens]
  · rw [Listing.result_write, Listing.result_write]
    exact hbares.listing name

/-- The comment is four bytes long, and what follows its line stays where it is. -/
example : Text.blankOut (inComment (ofString "a//é\n\"").run.tokens) 0 (Text.bytes "a//é\n\"") =
    Text.bytes "a    \n\"" := by
  decide +kernel

end Lexeme
