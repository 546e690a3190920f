/-
Lexeme.Proofs.Scan.Joining — texts can be joined at a line break.

Whatever a text ends in, an LF behind it ends that too: it makes no token longer,
and where it comes behind the CR of a comment it is one more blank. So a scan over two
texts with an LF between them is the scan over the first and then the scan over
the second (`run_joined`), as if it had been taken up there anew (`Behind.run`).
A scan that fails in the first text never sees the second, with one exception: a
quote that is left open in the first is closed by any quote in the second.

  §1 Seams — one run behind another.
  §2 Texts — the tokens of joined texts, and their error.
-/
import Lexeme.Proofs.Scan.Restart

namespace Lexeme

namespace Scanner

/-! ## §1 Seams -/

/-- A run that another takes up, unless it fails. -/
def Run.andThen (r s : Run) : Run :=
  match r.failure with
  | none => ⟨r.tokens ++ s.tokens, s.failure, s.after⟩
  | some _ => r

theorem Run.andThen_of_failure {r : Run} {e : ScanError} (h : r.failure = some e) (s : Run) :
    r.andThen s = r := by
  simp [andThen, h]

theorem Run.andThen_cons (t : Token) (r s : Run) :
    (r.cons t).andThen s = (r.andThen s).cons t := by
  cases hr : r.failure <;> simp [andThen, cons, hr]

/-- Nothing becomes longer by a line break. -/
theorem goesOn_joined {k : Kind} {rest : List Char}
    (hrest : ∀ c ∈ rest.head?, k.goesOn c = false) (back : List Char) :
    ∀ c ∈ (rest ++ '\n' :: back).head?, k.goesOn c = false := by
  intro c hc
  cases rest with
  | nil =>
    obtain rfl : '\n' = c := by simpa using hc
    exact Kind.goesOn_blank (by decide) (fun _ => by decide)
  | cons d rest => exact hrest c (by simpa using hc)

/-- Where a scan comes to the end of a text, a line break leads on to the next. The next is only
asked not to close a quote that is still open. -/
theorem run_joined (back passed ahead : List Char) :
    ∀ (mark mark' mark'' : Cursor),
      (∀ offset, (scanning passed ahead mark).run.failure = some (.openQuote offset) →
        '"' ∉ back) →
      let joined := (scanning passed (ahead ++ '\n' :: back) mark').run
      let split := (scanning passed ahead mark).run.andThen
        (scanning (passed ++ ahead ++ ['\n']) back mark'').run
      joined.tokens = split.tokens ∧ joined.failure = split.failure := by
  induction passed, ahead using textInduction with
  | blank passed gap hgap =>
    intro mark mark' mark'' hback
    have hgap' : ∀ c ∈ gap ++ ['\n'], CharClass.isBlank c = true :=
      blank_append hgap (by simp [CharClass.isBlank, CharClass.isLineEnd])
    have hjoined : gap ++ '\n' :: back = gap ++ ['\n'] ++ back := by simp
    rw [run_blank hgap, hjoined, run_blank_append hgap' passed mark' back mark'',
      ← List.append_assoc]
    exact ⟨rfl, rfl⟩
  | foreign passed gap c rest hgap hc =>
    intro mark mark' mark'' hback
    rw [run_foreign hgap passed mark hc, List.append_assoc, List.cons_append,
      run_foreign hgap passed mark' hc]
    exact ⟨rfl, rfl⟩
  | openQuote passed gap rest hgap hrest =>
    intro mark mark' mark'' hback
    rw [run_openQuote hgap passed mark hrest] at hback ⊢
    have hfree : '"' ∉ rest ++ '\n' :: back := by
      simpa [hrest] using hback _ rfl
    rw [List.append_assoc, List.cons_append, run_openQuote hgap passed mark' hfree]
    exact ⟨rfl, rfl⟩
  | token passed gap text rest k hgap htext hrest ih =>
    intro mark mark' mark'' hback
    have hjoined : gap ++ (text ++ rest) ++ '\n' :: back =
        gap ++ (text ++ (rest ++ '\n' :: back)) := by simp
    have hpassed : passed ++ (gap ++ (text ++ rest)) = passed ++ gap ++ text ++ rest := by simp
    rw [run_text hgap passed mark htext hrest mark] at hback ⊢
    rw [hjoined, run_text hgap passed mark' htext (goesOn_joined hrest back) mark', hpassed,
      Run.andThen_cons]
    obtain ⟨htokens, hfailure⟩ := ih mark mark' mark'' hback
    exact ⟨congrArg (_ :: ·) htokens, hfailure⟩

/-! ## §2 Texts -/

/-- The run over two texts with a line break between them. -/
def runJoined (a b : String) : Run :=
  (ofString (a ++ "\n" ++ b)).run

/-- It is the run over the first, with the second taken up behind it. -/
theorem runJoined_eq_andThen (a b : String)
    (hback : ∀ offset, (ofString a).run.failure = some (.openQuote offset) → '"' ∉ b.toList) :
    let later := (scanning (a.toList ++ ['\n']) b.toList (Cursor.ofString b)).run
    (runJoined a b).tokens = ((ofString a).run.andThen later).tokens ∧
      (runJoined a b).failure = ((ofString a).run.andThen later).failure := by
  have hlist : (a ++ "\n" ++ b).toList = a.toList ++ '\n' :: b.toList := by simp
  have hrun := run_joined b.toList [] a.toList (Cursor.ofString a)
    (Cursor.ofString (a ++ "\n" ++ b)) (Cursor.ofString b)
  rw [← hlist, ← ofString_eq_scanning, ← ofString_eq_scanning] at hrun
  exact hrun hback

/-- Where the first fails, the second is not looked at. -/
theorem runJoined_of_failure {a b : String} {e : ScanError} (he : (ofString a).run.failure = some e)
    (hback : ∀ offset, e = .openQuote offset → '"' ∉ b.toList) :
    (runJoined a b).tokens = (ofString a).run.tokens ∧ (runJoined a b).failure = some e := by
  obtain ⟨htokens, hfailure⟩ := runJoined_eq_andThen a b (by simpa [he] using hback)
  rw [Run.andThen_of_failure he] at htokens hfailure
  exact ⟨htokens, hfailure.trans he⟩

/-- A text that is taken up behind another is scanned as it is on its own, but farther on. -/
theorem run_behind_lineFeed (a b : String) :
    let later := (scanning (a.toList ++ ['\n']) b.toList (Cursor.ofString b)).run
    let move := (a.utf8ByteSize + 1 + ·)
    later.tokens = (ofString b).run.tokens.map (Token.moved move) ∧
      later.failure = (ofString b).run.failure.map (ScanError.moved move) := by
  let front := a.toList ++ ['\n']
  have hbehind : Behind front (ofString b) (scanning front b.toList (Cursor.ofString b)) := by
    have := @Behind.scanning front [] b.toList (Cursor.ofString b) (Cursor.ofString b)
    rwa [← ofString_eq_scanning, List.append_nil] at this
  have hlength : (Text.encode front).length = a.utf8ByteSize + 1 := by
    rw [Text.encode_append, List.length_append, ← Text.bytes_eq_encode, Text.length_bytes]
    rfl
  have hrun := hbehind.run
  rwa [hlength] at hrun

end Scanner

open Scanner

/-- **Texts can be joined at a line break.** If the first is split into tokens, these come first,
and then all that the second gives on its own, farther on by the length of the first and the line
break. If the first has a foreign character, the second changes nothing. Nor does it if a quote is
left open in the first, as long as it has no quote to close it. -/
theorem scan_joined (a b : String) :
    (∀ ts, tokenize a = .ok ts →
      let move := (a.utf8ByteSize + 1 + ·)
      (runJoined a b).tokens = ts ++ (ofString b).run.tokens.map (Token.moved move) ∧
        (runJoined a b).failure = (ofString b).run.failure.map (ScanError.moved move)) ∧
    (∀ offset found, tokenize a = .error (.unexpected offset found) →
      (runJoined a b).tokens = (ofString a).run.tokens ∧
        (runJoined a b).failure = some (.unexpected offset found)) ∧
    ∀ offset, tokenize a = .error (.openQuote offset) → '"' ∉ b.toList →
      (runJoined a b).tokens = (ofString a).run.tokens ∧
        (runJoined a b).failure = some (.openQuote offset) := by
  simp only [tokenize_eq_run, Run.result_eq_ok_iff, Run.result_eq_error_iff]
  refine ⟨?_, fun offset found he => ?_, fun offset he hb => ?_⟩
  · rintro ts ⟨hend, rfl⟩
    obtain ⟨hall, hlast⟩ := runJoined_eq_andThen a b (by simp [hend])
    obtain ⟨htokens, hfailure⟩ := run_behind_lineFeed a b
    simp only [Run.andThen, hend, htokens, hfailure] at hall hlast
    exact ⟨hall, hlast⟩
  · exact runJoined_of_failure he (by simp)
  · exact runJoined_of_failure he fun _ _ => hb

/-- A CR that ends a comment becomes part of a CRLF, and the second text fails; a foreign character,
and a quote that is left open, with no quote in what comes behind them. -/
theorem scan_joined_at_each_end :
    tokenize "x//é\r" = .ok [⟨.identifier, "x", 0⟩, ⟨.comment, "//é", 1⟩] ∧
      (runJoined "x//é\r" "/ \"y").tokens =
        [⟨.identifier, "x", 0⟩, ⟨.comment, "//é", 1⟩, ⟨.divide, "/", 7⟩] ∧
      (runJoined "x//é\r" "/ \"y").failure = some (.openQuote 9) ∧
      tokenize "x é" = .error (.unexpected 2 'é') ∧
      (runJoined "x é" "\"").failure = some (.unexpected 2 'é') ∧
      tokenize "x \"y" = .error (.openQuote 2) ∧
      (runJoined "x \"y" "é/").failure = some (.openQuote 2) := by
  have hok : tokenize "x//é\r" = .ok [⟨.identifier, "x", 0⟩, ⟨.comment, "//é", 1⟩] := by
    rw [tokenize_eq_run, Run.result_eq_ok_iff]
    decide +kernel
  have hforeign : tokenize "x é" = .error (.unexpected 2 'é') := by
    rw [tokenize_eq_run, Run.result_eq_error_iff]
    decide +kernel
  have hopened : tokenize "x \"y" = .error (.openQuote 2) := by
    rw [tokenize_eq_run, Run.result_eq_error_iff]
    decide +kernel
  have htokens : (ofString "/ \"y").run.tokens = [⟨.divide, "/", 0⟩] := by decide +kernel
  have hfailure : (ofString "/ \"y").run.failure = some (.openQuote 2) := by decide +kernel
  obtain ⟨hcommented, hends⟩ := (scan_joined "x//é\r" "/ \"y").1 _ hok
  rw [htokens] at hcommented
  rw [hfailure] at hends
  exact ⟨hok, hcommented, hends, hforeign, ((scan_joined "x é" "\"").2.1 _ _ hforeign).2, hopened,
    ((scan_joined "x \"y" "é/").2.2 _ hopened (by decide)).2⟩

end Lexeme
