/-
Lexeme.Proofs.Command.Checking — every input is checked, and every failure counts once.

What is read of an input depends on the inputs before it only where it is standard
input, which nobody can read twice (`readAfter`). Each reading comes to one finding:
a number of tokens, or a problem (`Finds`). Checking goes through the inputs in their
order, prints a line for each number and logs an error for each problem, and stops at
none of them; at the end it fails if there was a problem, with their number
(`check_visits_all`).

  §1 Readings — what is read of each input.
  §2 Findings — what checking one input comes to.
  §3 Checking — all inputs, and one list of inputs behind another.
-/
import Lexeme.Command.Run
import Lexeme.Proofs.Report.Tally
import Mathlib

namespace Lexeme.Command

/-! ## §1 Readings -/

/-- A text that was read under a name, or the failure that a read error is. -/
def Source.named (name : String) (failure : ReadError → Failure) :
    Except ReadError String → Except Failure Source
  | .ok content => .ok ⟨name, content⟩
  | .error why => .error (failure why)

/-- What inputs leave of standard input: nothing, if it is among them. -/
def leftBehind (standardInput : Reading) (inputs : List (Option String)) : Reading :=
  if inputs.any isStandardInput then .ok [] else standardInput

/-- What is read of an input that comes behind others. -/
def readAfter (files : Files) (standardInput : Reading) (before : List (Option String)) :
    Option String → Except Failure Source
  | some path =>
    if isHyphen path then stream else Source.named path (.unreadable path) (files.readText path)
  | none => stream
where
  stream := Source.named standardInputName .io (leftBehind standardInput before).text

/-- What is read of each input. -/
def readings (files : Files) (standardInput : Reading) (inputs : List (Option String)) :
    List (Except Failure Source) :=
  inputs.mapIdx fun i input => readAfter files standardInput (inputs.take i) input

section
variable (files : Files) (standardInput : Reading)

/-- Reading goes on with what the input before has left. -/
theorem readSource_eq (input : Option String) :
    readSource files standardInput input =
      (readAfter files standardInput [] input, leftBehind standardInput [input]) := by
  have hstream (h : input.filter (fun path => !isHyphen path) = none) :
      readSource files standardInput input =
        (Source.named standardInputName .io standardInput.text, .ok []) := by
    rw [readSource, h]
    cases standardInput.text <;> rfl
  cases input with
  | none => exact hstream rfl
  | some path =>
    by_cases hpath : isHyphen path = true
    · rw [hstream (by simp [hpath])]
      simp [readAfter, readAfter.stream, leftBehind, isStandardInput, hpath]
    · simp only [readSource, Option.filter_some, hpath, Bool.not_false, if_true, readAfter]
      cases files.readText path <;> simp [Source.named, leftBehind, isStandardInput, hpath]

theorem leftBehind_append (xs ys : List (Option String)) :
    leftBehind standardInput (xs ++ ys) = leftBehind (leftBehind standardInput xs) ys := by
  unfold leftBehind
  cases hx : xs.any isStandardInput <;> cases hy : ys.any isStandardInput <;> simp [hx, hy]

theorem readAfter_append (xs ys : List (Option String)) (input : Option String) :
    readAfter files standardInput (xs ++ ys) input =
      readAfter files (leftBehind standardInput xs) ys input := by
  simp only [readAfter, readAfter.stream, leftBehind_append]

theorem readings_cons (input : Option String) (inputs : List (Option String)) :
    readings files standardInput (input :: inputs) =
      readAfter files standardInput [] input ::
        readings files (leftBehind standardInput [input]) inputs := by
  have hlater (i : Nat) (other : Option String) :
      readAfter files standardInput ((input :: inputs).take (i + 1)) other =
        readAfter files (leftBehind standardInput [input]) (inputs.take i) other :=
    readAfter_append files standardInput [input] (inputs.take i) other
  simp only [readings, List.mapIdx_cons, hlater]
  rfl

end

/-! ## §2 Findings -/

/-- What checking an input comes to. -/
inductive Finding where
  /-- The number of tokens of the text with a name. -/
  | counted (name : String) (tokens : Nat)
  | problem (f : Failure)

namespace Finding

/-- What is printed of a finding. -/
def line : Finding → String
  | counted name tokens => name ++ ": " ++ toString tokens ++ " tokens\n"
  | problem _ => ""

/-- The problem, if there is one. -/
def failure? : Finding → Option Failure
  | counted _ _ => none
  | problem f => some f

end Finding

/-- What the reading of an input comes to: the number of its tokens if it has some text and the text
splits into tokens, and otherwise the reason why not. -/
inductive Finds : Except Failure Source → Finding → Prop
  | unread (f : Failure) : Finds (.error f) (.problem f)
  | counted {source : Source} {ts : List Token} (h : tokenize source.content = .ok ts) :
      Finds (.ok source) (.counted source.name ts.length)
  | stuck {source : Source} {d : Diagnostic}
      (h : (Tally.count source.name source.content).result = .error d) :
      Finds (.ok source) (.problem (.scan d))

/-- Whether an input could be read and scanned. -/
def isClean : Except Failure Source → Bool
  | .error _ => false
  | .ok source => (tokenize source.content).isOk

/-- The number of inputs that could not be read or scanned. -/
def failures (read : List (Except Failure Source)) : Nat :=
  read.countP fun r => !isClean r

/-- What was printed, logged and counted is that of some findings. -/
structure Checked.Covers (c : Checked) (read : List (Except Failure Source))
    (findings : List Finding) : Prop where
  finds : List.Forall₂ Finds read findings
  output : c.output = String.join (findings.map Finding.line)
  errors : c.log.filter (·.level = .error) =
    (findings.filterMap Finding.failure?).map Log.Entry.problem
  failed : c.failed = failures read

/-- One check behind another. -/
def Checked.andThen (c d : Checked) : Checked :=
  ⟨c.output ++ d.output, c.log ++ d.log, c.failed + d.failed⟩

theorem Checked.Covers.andThen {c d : Checked} {read read' : List (Except Failure Source)}
    {findings findings' : List Finding} (h : c.Covers read findings)
    (h' : d.Covers read' findings') : (c.andThen d).Covers (read ++ read') (findings ++ findings') where
  finds := List.rel_append h.finds h'.finds
  output := by simp [Checked.andThen, h.output, h'.output]
  errors := by simp [Checked.andThen, h.errors, h'.errors]
  failed := by simp [Checked.andThen, failures, h.failed, h'.failed]

/-- A failed tally is that of a text that does not split into tokens, and any other has the number
of its tokens. -/
theorem result_count_cases (name source : String) :
    (∃ ts, tokenize source = .ok ts ∧ (Tally.count name source).result = .ok ts.length) ∨
      ∃ d, (tokenize source).isOk = false ∧ (Tally.count name source).result = .error d := by
  rw [Tally.result_count, Scanner.tokenize_eq_run, Scanner.Run.tally, Scanner.Run.result]
  cases (Scanner.ofString source).run.failure with
  | none => exact .inl ⟨_, rfl, rfl⟩
  | some e => exact .inr ⟨_, rfl, rfl⟩

/-- A tally logs no errors of its own. -/
theorem filter_log_count (name source : String) :
    (Tally.count name source).log.filter (·.level = .error) = [] := by
  refine List.filter_eq_nil_iff.mpr fun e he => ?_
  simpa using Tally.level_ne_error_of_mem_count name source e he

theorem checkOne_covers (read : Except Failure Source) :
    ∃ finding, (checkOne read).Covers [read] [finding] := by
  cases read with
  | error f => exact ⟨.problem f, .cons (.unread f) .nil, rfl, rfl, rfl⟩
  | ok source =>
    have hquiet := filter_log_count source.name source.content
    rcases result_count_cases source.name source.content with ⟨ts, hts, hcount⟩ | ⟨d, hts, hcount⟩
    · have hone : checkOne (.ok source) = ⟨source.name ++ ": " ++ toString ts.length ++ " tokens\n",
          (Tally.count source.name source.content).log, 0⟩ := by
        simp only [checkOne, hcount]
      rw [hone]
      refine ⟨.counted source.name ts.length, .cons (.counted hts) .nil, ?_, hquiet, ?_⟩
      · simp [Finding.line]
      · simp [failures, isClean, hts, Except.isOk, Except.toBool]
    · have hone : checkOne (.ok source) = ⟨"", (Tally.count source.name source.content).log ++
          [.problem (.scan d)], 1⟩ := by
        simp only [checkOne, hcount]
      rw [hone]
      refine ⟨.problem (.scan d), .cons (.stuck hcount) .nil, rfl, ?_, ?_⟩
      · rw [List.filter_append, hquiet]
        rfl
      · simp [failures, isClean, hts]

/-! ## §3 Checking -/

section
variable (files : Files)

theorem checkAll_cons (standardInput : Reading) (input : Option String)
    (inputs : List (Option String)) :
    checkAll files standardInput (input :: inputs) =
      (checkOne (readAfter files standardInput [] input)).andThen
        (checkAll files (leftBehind standardInput [input]) inputs) := by
  rw [checkAll, readSource_eq]
  rfl

/-- Checking goes through all inputs, whatever it finds. -/
theorem checkAll_covers (standardInput : Reading) (inputs : List (Option String)) :
    ∃ findings, (checkAll files standardInput inputs).Covers
      (readings files standardInput inputs) findings := by
  induction inputs generalizing standardInput with
  | nil => exact ⟨[], .nil, rfl, rfl, rfl⟩
  | cons input inputs ih =>
    obtain ⟨finding, hfirst⟩ := checkOne_covers (readAfter files standardInput [] input)
    obtain ⟨findings, hothers⟩ := ih (leftBehind standardInput [input])
    rw [checkAll_cons, readings_cons]
    exact ⟨finding :: findings, hfirst.andThen hothers⟩

theorem checkAll_append (standardInput : Reading) (xs ys : List (Option String)) :
    checkAll files standardInput (xs ++ ys) =
      (checkAll files standardInput xs).andThen
        (checkAll files (leftBehind standardInput xs) ys) := by
  induction xs generalizing standardInput with
  | nil => simp [checkAll, Checked.andThen, leftBehind]
  | cons input xs ih =>
    have hleft := leftBehind_append standardInput [input] xs
    rw [List.cons_append, checkAll_cons, checkAll_cons, ih, ← hleft]
    simp [Checked.andThen, String.append_assoc, Nat.add_assoc]

end

theorem leftBehind_inputsOf (names : List String) (hne : names ≠ []) (standardInput : Reading) :
    leftBehind standardInput (inputsOf names) =
      if names.any isHyphen then .ok [] else standardInput := by
  simp [leftBehind, inputsOf, hne, isStandardInput, Function.comp_def]

/-- What a check with so many failures ends with. -/
def verdict (failed : Nat) : Option Failure :=
  if failed = 0 then none
  else some (.validation (toString failed ++ " file(s) failed to scan"))

/-- **Checking visits every input and counts failures exactly.** The inputs are read in order, and
each comes to one finding: a number of tokens is printed in a line of its own, and a problem logged
as one error. The check fails with the number of inputs that could not be read or scanned, if there
are any. So checking one list of inputs behind another prints the lines of both and adds up the
failures; only standard input, once read by the first list, is empty to the second. -/
theorem check_visits_all (files : Files) (standardInput : Reading) (names : List String) :
    let read := readings files standardInput (inputsOf names)
    let report := runCheck files standardInput names
    (∃ findings : List Finding,
      List.Forall₂ Finds read findings ∧
        report.output = String.join (findings.map Finding.line) ∧
        report.log.filter (·.level = .error) =
          (findings.filterMap Finding.failure?).map Log.Entry.problem) ∧
      report.failure = verdict (failures read) ∧
      (report.failure = none ↔ ∀ r ∈ read, isClean r = true) ∧
      ∀ more : List String, names ≠ [] → more ≠ [] →
        let left := if names.any isHyphen then .ok [] else standardInput
        let all := runCheck files standardInput (names ++ more)
        all.output = report.output ++ (runCheck files left more).output ∧
          all.failure = verdict (failures read + failures (readings files left (inputsOf more))) := by
  intro read report
  obtain ⟨findings, hcovers⟩ := checkAll_covers files standardInput (inputsOf names)
  have hfailure : report.failure = verdict (failures read) := congrArg verdict hcovers.failed
  refine ⟨⟨findings, hcovers.finds, hcovers.output, hcovers.errors⟩, hfailure, ?_, ?_⟩
  · rw [hfailure, verdict, failures]
    simp
  · intro more hnames hmore left all
    obtain ⟨others, hothers⟩ := checkAll_covers files left (inputsOf more)
    have hall : checkAll files standardInput (inputsOf (names ++ more)) =
        (checkAll files standardInput (inputsOf names)).andThen
          (checkAll files left (inputsOf more)) := by
      have hinputs : inputsOf (names ++ more) = inputsOf names ++ inputsOf more := by
        simp [inputsOf, hnames, hmore]
      rw [hinputs, checkAll_append, leftBehind_inputsOf names hnames]
    have hfailed : (checkAll files standardInput (inputsOf (names ++ more))).failed =
        failures read + failures (readings files left (inputsOf more)) := by
      rw [hall, Checked.andThen, hcovers.failed, hothers.failed]
    exact ⟨congrArg Checked.output hall, congrArg verdict hfailed⟩

/-- A text of one token, standard input of two, a path with no file, standard input again, and an
open quote. -/
theorem check_visits_all_mixed :
    let files := Files.ofReadings [("a", .ok [120]), ("b", .ok [34])]
    let all := runCheck files (.ok [120, 32, 121]) ["a", "-", "c", "-", "b"]
    all.output = "a: 1 tokens\n<stdin>: 2 tokens\n<stdin>: 0 tokens\n" ∧
      all.failure = some (.validation "2 file(s) failed to scan") := by
  intro files all
  obtain ⟨_, _, _, hjoined⟩ := check_visits_all files (.ok [120, 32, 121]) ["a", "-", "c"]
  obtain ⟨houtput, hfailure⟩ := hjoined ["-", "b"] (by decide) (by decide)
  constructor
  · refine houtput.trans ?_
    cbv
  · refine hfailure.trans ?_
    cbv

end Lexeme.Command
