/-
Lexeme.Proofs.Command.Verbosity — a log is told, and changes nothing else.

A run tells its log entry by entry, while it scans and between the lines that it
prints, and each entry is shown or dropped there and then. Here a run is carried out
so, in front of a listener that may make anything of an entry (`runBefore`). The run
never learns what: before any listener it prints the same and ends alike, and has told
the same entries (`Listener.job_eq`). A report, whose log is cut down to what is shown
when all is done, is what a listener has that keeps the entries that are shown
(`watched_eq_run`). So verbosity can add entries to a log, and do nothing else
(`verbosity_observes`).

  §1 Listeners — an entry that is told, and a text that is printed.
  §2 Jobs      — listing and checking in front of a listener.
  §3 Runs      — listeners for each verbosity, and the reports.
-/
import Lexeme.Command.Reply

namespace Lexeme.Command

/-! ## §1 Listeners -/

/-- What has become of a run so far. -/
structure Stage (L : Type) where
  /-- What has been printed. -/
  printed : String
  /-- What a listener has made of the log. -/
  heard : L

def Stage.print {L : Type} (w : Stage L) (text : String) : Stage L :=
  { w with printed := w.printed ++ text }

/-- What a listener makes of each entry, given what it has made of those before. -/
abbrev Listener (L : Type) := L → Log.Entry → L

namespace Listener

variable {L : Type} (listener : Listener L)

def tell (w : Stage L) (e : Log.Entry) : Stage L :=
  { w with heard := listener w.heard e }

/-- Tells the event of a call, if it has one. -/
def tellEvent (w : Stage L) : Option ScanEvent → Stage L
  | none => w
  | some event => listener.tell w (.scan event)

/-- The stage behind some output and some entries, whatever their order was among each other. -/
def behind (w : Stage L) (output : String) (log : List Log.Entry) : Stage L :=
  ⟨w.printed ++ output, log.foldl listener w.heard⟩

section
variable (w : Stage L) (output : String) (log : List Log.Entry)

theorem behind_nil : listener.behind w "" [] = w := by simp [behind]

theorem print_behind (text : String) :
    (listener.behind w output log).print text = listener.behind w (output ++ text) log := by
  simp [behind, Stage.print, String.append_assoc]

theorem tell_behind (e : Log.Entry) :
    listener.tell (listener.behind w output log) e = listener.behind w output (log ++ [e]) := by
  simp [behind, tell]

theorem behind_behind (output' : String) (log' : List Log.Entry) :
    listener.behind (listener.behind w output log) output' log' =
      listener.behind w (output ++ output') (log ++ log') := by
  simp [behind, String.append_assoc]

/-- A log that is gathered with its latest entry first grows at its front. -/
theorem tellEvent_behind (event : Option ScanEvent) :
    listener.tellEvent (listener.behind w output log.reverse) event =
      listener.behind w output ((event.map Log.Entry.scan).toList ++ log).reverse := by
  cases event with
  | none => rfl
  | some event => simp [tellEvent, tell_behind]

end

/-! ## §2 Jobs -/

/-- Lists the tokens of a scanner: the event of each call is told, and then its line printed. -/
def list (name : String) (format : Listing.Format) (comments : Bool) :
    Nat → Nat → Scanner → Stage L → Except Diagnostic Nat × Stage L
  | 0, count, _, w => (.ok count, w)
  | n + 1, count, s, w =>
    let step := s.next
    let w := listener.tellEvent w step.event
    match step.outcome with
    | .endOfInput => (.ok count, w)
    | .failed e => (.error (.ofScanner name step.after e), w)
    | .token t =>
      if t.kind = .comment ∧ comments = false then list name format comments n count step.after w
      else list name format comments n (count + 1) step.after (w.print (format.line t))

/-- Counts the tokens of a scanner. -/
def count (name : String) : Nat → Nat → Scanner → Stage L → Except Diagnostic Nat × Stage L
  | 0, tokens, _, w => (.ok tokens, listener.tell w (.checked name tokens))
  | n + 1, tokens, s, w =>
    let step := s.next
    let w := listener.tellEvent w step.event
    match step.outcome with
    | .endOfInput => (.ok tokens, listener.tell w (.checked name tokens))
    | .failed e => (.error (.ofScanner name step.after e), w)
    | .token _ => count name n (tokens + 1) step.after w

/-- Checks what was read of one input. -/
def checkOne : Except Failure Source → Stage L → Nat × Stage L
  | .error f, w => (1, listener.tell w (.problem f))
  | .ok source, w =>
    let s := Scanner.ofString source.content
    let w := listener.tell w (.scan (Scanner.loading source.content))
    match listener.count source.name s.callBound 0 s w with
    | (.ok tokens, w) => (0, w.print (source.name ++ ": " ++ toString tokens ++ " tokens\n"))
    | (.error d, w) => (1, listener.tell w (.problem (.scan d)))

/-- Checks inputs behind others, of which so many have failed. -/
def checkAll (files : Files) : Nat → Reading → List (Option String) → Stage L → Nat × Stage L
  | failed, _, [], w => (failed, w)
  | failed, standardInput, path :: paths, w =>
    let (source, standardInput) := readSource files standardInput path
    let (more, w) := listener.checkOne source w
    checkAll files (failed + more) standardInput paths w

/-- Does a job under settings. -/
def job (files : Files) (standardInput : Reading) (settings : Settings) :
    Job → Stage L → Option Failure × Stage L
  | .lex input format noComments, w =>
    match (readSource files standardInput input).1 with
    | .error f => (some f, w)
    | .ok source =>
      let s := Scanner.ofString source.content
      let w := listener.tell w (.scan (Scanner.loading source.content))
      match listener.list source.name (format.getD settings.output.format)
        (settings.output.comments && !noComments) s.callBound 0 s w with
      | (.ok count, w) => (none, listener.tell w (.listed source.name count))
      | (.error d, w) => (some (.scan d), w)
  | .check inputs, w =>
    let (failed, w) := listener.checkAll files 0 standardInput (inputsOf inputs) w
    (if failed = 0 then none else some (.failedInputs failed), w)

theorem list_eq (name : String) (format : Listing.Format) (comments : Bool) (n : Nat)
    (output : String) (count : Nat) (events : List ScanEvent) (s : Scanner) (w : Stage L) :
    let listing := Listing.writeWithin name format comments n output count events s
    listener.list name format comments n count s
        (listener.behind w output (events.map Log.Entry.scan).reverse) =
      (listing.result, listener.behind w listing.output (listing.events.map Log.Entry.scan)) := by
  induction n generalizing output count events s with
  | zero => simp [list, Listing.writeWithin, List.map_reverse]
  | succ n ih =>
    have hevents : (s.next.event.map Log.Entry.scan).toList ++ events.map Log.Entry.scan =
        (s.next.event.toList ++ events).map Log.Entry.scan := by
      cases s.next.event <;> rfl
    rw [list, Listing.writeWithin]
    simp only [tellEvent_behind, hevents]
    cases s.next.outcome with
    | endOfInput => simp [List.map_reverse]
    | failed e => simp [List.map_reverse]
    | token t =>
      simp only
      split
      · exact ih output count _ s.next.after
      · rw [print_behind]
        exact ih (output ++ format.line t) (count + 1) _ s.next.after

theorem count_eq (name : String) (n tokens : Nat) (log : List Log.Entry) (s : Scanner)
    (w : Stage L) :
    let tally := Tally.countWithin name n tokens log s
    listener.count name n tokens s (listener.behind w "" log.reverse) =
      (tally.result, listener.behind w "" tally.log) := by
  induction n generalizing tokens log s with
  | zero => simp [count, Tally.countWithin, tell_behind]
  | succ n ih =>
    rw [count, Tally.countWithin]
    simp only [tellEvent_behind]
    cases s.next.outcome with
    | endOfInput => simp [tell_behind]
    | failed e => rfl
    | token t => exact ih (tokens + 1) _ s.next.after

/-- A text is loaded, and then listed. -/
theorem list_text (source : Source) (format : Listing.Format) (comments : Bool) (w : Stage L) :
    let s := Scanner.ofString source.content
    let listing := Listing.write source.name source.content format comments
    listener.list source.name format comments s.callBound 0 s
        (listener.tell w (.scan (Scanner.loading source.content))) =
      (listing.result, listener.behind w listing.output (listing.events.map Log.Entry.scan)) := by
  intro s listing
  have hload : listener.tell w (.scan (Scanner.loading source.content)) =
      listener.behind w "" ([Scanner.loading source.content].map Log.Entry.scan).reverse := by
    simp [behind, tell]
  rw [hload]
  exact listener.list_eq source.name format comments s.callBound "" 0 _ s w

/-- A text is loaded, and then counted. -/
theorem count_text (source : Source) (w : Stage L) :
    let s := Scanner.ofString source.content
    let tally := Tally.count source.name source.content
    listener.count source.name s.callBound 0 s
        (listener.tell w (.scan (Scanner.loading source.content))) =
      (tally.result, listener.behind w "" tally.log) := by
  intro s tally
  have hload : listener.tell w (.scan (Scanner.loading source.content)) =
      listener.behind w "" [Log.Entry.scan (Scanner.loading source.content)].reverse := by
    simp [behind, tell]
  rw [hload]
  exact listener.count_eq source.name s.callBound 0 _ s w

theorem checkOne_eq (read : Except Failure Source) (w : Stage L) :
    let checked := Command.checkOne read
    listener.checkOne read w =
      (checked.failed, listener.behind w checked.output checked.log) := by
  cases read with
  | error f => simp [checkOne, Command.checkOne, behind, tell]
  | ok source =>
    simp only [checkOne, count_text, Command.checkOne]
    cases (Tally.count source.name source.content).result with
    | ok tokens => simp only [print_behind, String.empty_append]
    | error d => simp only [tell_behind]

theorem checkAll_eq (files : Files) (failed : Nat) (standardInput : Reading)
    (inputs : List (Option String)) (w : Stage L) :
    let checked := Command.checkAll files standardInput inputs
    listener.checkAll files failed standardInput inputs w =
      (failed + checked.failed, listener.behind w checked.output checked.log) := by
  induction inputs generalizing failed standardInput w with
  | nil => simp [checkAll, Command.checkAll, behind_nil]
  | cons input inputs ih =>
    simp only [checkAll, checkOne_eq, ih, Command.checkAll, behind_behind, Nat.add_assoc]

/-- In front of any listener, a job prints what it prints, fails as it does, and tells its log. -/
theorem job_eq (files : Files) (standardInput : Reading) (settings : Settings) (job : Job)
    (w : Stage L) :
    let report := runJob files standardInput settings job
    listener.job files standardInput settings job w =
      (report.failure, listener.behind w report.output report.log) := by
  cases job with
  | check inputs => simp only [Listener.job, checkAll_eq, runJob, runCheck, Nat.zero_add]
  | lex input format noComments =>
    cases hread : (readSource files standardInput input).1 with
    | error f => simp [Listener.job, runJob, runLex, hread, behind_nil]
    | ok source =>
      simp only [Listener.job, hread, list_text, runJob, runLex, Command.list]
      cases (Listing.write source.name source.content (format.getD settings.output.format)
        (settings.output.comments && !noComments)).result with
      | ok count => simp only [tell_behind]
      | error d => rfl

end Listener

/-! ## §3 Runs -/

/-- A run in front of one of two listeners. Which of them it is, the settings have a say in. -/
def runBefore {L : Type} (listeners : Bool → Listener L) (files : Files) (standardInput : Reading)
    (paths : List String) (inv : Invocation) (w : Stage L) : Option Failure × Stage L :=
  match settingsOf files paths inv with
  | .error f => (some f, w)
  | .ok settings =>
    (listeners (inv.verbose || settings.verbose)).job files standardInput settings inv.job w

/-- Keeps the entries that are shown. -/
def keeping (verbose : Bool) : Listener (List Log.Entry) :=
  fun log e => log ++ Log.shown verbose [e]

/-- A run whose entries are shown or dropped while it goes on. -/
def watched (files : Files) (standardInput : Reading) (paths : List String) (inv : Invocation) :
    Report :=
  let (failure, w) := runBefore keeping files standardInput paths inv ⟨"", []⟩
  ⟨w.printed, w.heard, failure⟩

theorem foldl_keeping (verbose : Bool) (entries log : List Log.Entry) :
    entries.foldl (keeping verbose) log = log ++ Log.shown verbose entries := by
  induction entries generalizing log with
  | nil => simp [Log.shown]
  | cons e entries ih =>
    have hshown : Log.shown verbose (e :: entries) =
        Log.shown verbose [e] ++ Log.shown verbose entries := List.filter_append [e] entries
    rw [List.foldl_cons, ih, keeping, hshown, List.append_assoc]

/-- It makes no difference whether a log is cut down to what is shown while it grows or when it is
complete. -/
theorem watched_eq_run (files : Files) (standardInput : Reading) (paths : List String)
    (inv : Invocation) :
    watched files standardInput paths inv = run files standardInput paths inv := by
  unfold watched runBefore run
  cases settingsOf files paths inv with
  | error f => rfl
  | ok settings =>
    simp only [Listener.job_eq, Listener.behind, foldl_keeping, String.empty_append,
      List.nil_append]

/-- Whoever listens, and however verbose the run is to be, it prints the same and ends alike. -/
theorem runBefore_eq {L : Type} (listeners : Bool → Listener L) (files : Files)
    (standardInput : Reading) (paths : List String) (inv : Invocation) (verbose : Bool)
    (w : Stage L) :
    let report := run files standardInput paths inv
    let ending := runBefore listeners files standardInput paths { inv with verbose } w
    ending.1 = report.failure ∧ ending.2.printed = w.printed ++ report.output := by
  have hsettings : settingsOf files paths { inv with verbose } = settingsOf files paths inv := rfl
  simp only [runBefore, run, hsettings]
  cases settingsOf files paths inv with
  | error f => simp
  | ok settings => simp [Listener.job_eq, Listener.behind]

/-- Whether an entry has one of the levels that every log shows, which are INFO and ERROR. -/
def isAlwaysShown (e : Log.Entry) : Bool :=
  e.level = .info ∨ e.level = .error

theorem filter_isAlwaysShown (verbose : Bool) (log : List Log.Entry) :
    (Log.shown verbose log).filter isAlwaysShown = log.filter isAlwaysShown := by
  rw [Log.shown, List.filter_filter]
  refine List.filter_congr fun e _ => ?_
  cases he : e.level <;> cases verbose <;> simp [isAlwaysShown, he, Log.threshold, Log.Level.rank]

/-- **Verbosity observes and does nothing else.** Two runs that differ in it alone print the same,
end with the same exit code and the same error line, if any, and log the same entries of the levels
INFO and ERROR in the same order. It makes no difference to a report whether entries are shown or
dropped while the run goes on or when it is over; and before any listener, whatever it makes of the
entries it is told, the run prints the same and fails with the same failure, verbose or not. -/
theorem verbosity_observes (files : Files) (standardInput : Reading) (paths : List String)
    (inv : Invocation) :
    let quiet := run files standardInput paths { inv with verbose := false }
    let loud := run files standardInput paths { inv with verbose := true }
    (loud.output = quiet.output ∧ loud.exitCode = quiet.exitCode ∧
      (Reply.report loud).errorLine = (Reply.report quiet).errorLine ∧
      loud.log.filter isAlwaysShown = quiet.log.filter isAlwaysShown) ∧
      watched files standardInput paths { inv with verbose := false } = quiet ∧
      watched files standardInput paths { inv with verbose := true } = loud ∧
      ∀ (L : Type) (listeners : Bool → Listener L) (verbose : Bool) (w : Stage L),
        let ending := runBefore listeners files standardInput paths { inv with verbose } w
        ending.1 = quiet.failure ∧ ending.2.printed = w.printed ++ quiet.output := by
  intro quiet loud
  have hsame : loud.output = quiet.output ∧ loud.failure = quiet.failure ∧
      loud.log.filter isAlwaysShown = quiet.log.filter isAlwaysShown := by
    have hsettings (verbose : Bool) :
        settingsOf files paths { inv with verbose } = settingsOf files paths inv := rfl
    simp only [loud, quiet, run, hsettings]
    cases settingsOf files paths inv with
    | error f => exact ⟨rfl, rfl, rfl⟩
    | ok settings => exact ⟨rfl, rfl, by rw [filter_isAlwaysShown, filter_isAlwaysShown]⟩
  obtain ⟨houtput, hfailure, hlog⟩ := hsame
  refine ⟨⟨houtput, ?_, ?_, hlog⟩, watched_eq_run .., watched_eq_run .., ?_⟩
  · rw [Report.exitCode, Report.exitCode, hfailure]
  · rw [Reply.errorLine, Reply.errorLine, hfailure]
  · intro L listeners verbose w
    exact runBefore_eq listeners files standardInput paths { inv with verbose := false } verbose w

/-- An open quote in standard input: the verbose log has more entries, and the same error. -/
example :
    let check := fun verbose =>
      run (Files.ofReadings []) (.ok [34]) [] ⟨verbose, none, false, .check []⟩
    (check true).log.length = 3 ∧ (check false).log.length = 1 ∧
      (check true).log.filter isAlwaysShown = (check false).log := by
  decide +kernel

end Lexeme.Command
