/-
Lexeme.Command.Run — what a run gives.

A run is a function of the files, of standard input and of what is asked for.
Standard input is read to its end at once, so whoever reads it again finds
nothing.

  §1 Reports  — output, log and failure.
  §2 Inputs   — files and standard input.
  §3 Jobs     — listing one input, and checking several.
  §4 Runs     — with the settings.
-/
import Lexeme.Command.Invocation
import Lexeme.Files.Path
import Lexeme.Report.Tally
import Lexeme.Settings

namespace Lexeme.Command

/-! ## §1 Reports -/

/-- What a run gives. -/
structure Report where
  /-- What is printed. -/
  output : String
  /-- What was told on the way. -/
  log : List Log.Entry
  /-- Why the run failed, if it did. -/
  failure : Option Failure
deriving DecidableEq, Repr

/-- Zero for success. -/
def Report.exitCode (r : Report) : Nat :=
  if r.failure.isSome then 1 else 0

/-! ## §2 Inputs -/

/-- The name that standard input goes by. -/
def standardInputName : String := "<stdin>"

/-- A text with its name. -/
structure Source where
  name : String
  content : String
deriving DecidableEq, Repr

/-- Whether an input is standard input: it has no path, or that of a single hyphen. -/
def isStandardInput (input : Option String) : Bool :=
  input.all isHyphen

/-- The inputs that are named, or standard input if there are none. -/
def inputsOf (names : List String) : List (Option String) :=
  if names.isEmpty then [none] else names.map some

/-- Reads an input, and tells what is left of standard input. -/
def readSource (files : Files) (standardInput : Reading) (path : Option String) :
    Except Failure Source × Reading :=
  match path.filter fun path => !isHyphen path with
  | some path =>
    match files.readText path with
    | .ok content => (.ok ⟨path, content⟩, standardInput)
    | .error why => (.error (.unreadable path why), standardInput)
  | none =>
    match standardInput.text with
    | .ok content => (.ok ⟨standardInputName, content⟩, .ok [])
    | .error why => (.error (.io why), .ok [])

/-! ## §3 Jobs -/

/-- Lists the tokens of a text. -/
def list (source : Source) (format : Listing.Format) (comments : Bool) : Report :=
  let listing := Listing.write source.name source.content format comments
  let log := listing.events.map Log.Entry.scan
  match listing.result with
  | .ok count => ⟨listing.output, log ++ [.listed source.name count], none⟩
  | .error d => ⟨listing.output, log, some (.scan d)⟩

/-- Lists the tokens of an input. -/
def runLex (files : Files) (standardInput : Reading) (input : Option String)
    (format : Listing.Format) (comments : Bool) : Report :=
  match (readSource files standardInput input).1 with
  | .error f => ⟨"", [], some f⟩
  | .ok source => list source format comments

/-- What checking inputs gives. -/
structure Checked where
  output : String
  log : List Log.Entry
  /-- The number of inputs that could not be read or scanned. -/
  failed : Nat
deriving DecidableEq, Repr

/-- Checks what was read of one input. -/
def checkOne : Except Failure Source → Checked
  | .error f => ⟨"", [.problem f], 1⟩
  | .ok source =>
    let tally := Tally.count source.name source.content
    match tally.result with
    | .ok count => ⟨source.name ++ ": " ++ toString count ++ " tokens\n", tally.log, 0⟩
    | .error d => ⟨"", tally.log ++ [.problem (.scan d)], 1⟩

/-- Checks inputs one after the other, whatever comes of each. -/
def checkAll (files : Files) : Reading → List (Option String) → Checked
  | _, [] => ⟨"", [], 0⟩
  | standardInput, path :: paths =>
    let (source, standardInput) := readSource files standardInput path
    let first := checkOne source
    let others := checkAll files standardInput paths
    ⟨first.output ++ others.output, first.log ++ others.log, first.failed + others.failed⟩

/-- Checks all inputs; without any, standard input. -/
def runCheck (files : Files) (standardInput : Reading) (inputs : List String) : Report :=
  let checked := checkAll files standardInput (inputsOf inputs)
  ⟨checked.output, checked.log,
    if checked.failed = 0 then none else some (.failedInputs checked.failed)⟩

/-- Does a job under settings. The flags of the command line beat the settings. -/
def runJob (files : Files) (standardInput : Reading) (settings : Settings) : Job → Report
  | .lex input format noComments =>
    runLex files standardInput input (format.getD settings.output.format)
      (settings.output.comments && !noComments)
  | .check inputs => runCheck files standardInput inputs

/-! ## §4 Runs -/

/-- The settings of a run: those at the path that is given, or the first of those that are looked
for. -/
def settingsOf (files : Files) (paths : List String) (inv : Invocation) :
    Except Failure Settings :=
  match inv.config with
  | some path => Settings.loadFrom files path
  | none => Settings.search files paths

/-- The inputs of a job. -/
def Job.inputs : Job → List (Option String)
  | .lex input _ _ => [input]
  | .check inputs => inputsOf inputs

/-- The files that a run may look at. -/
def Invocation.files (paths : List String) (inv : Invocation) : List String :=
  let settings :=
    match inv.config with
    | some path => [path]
    | none => paths
  settings ++ (inv.job.inputs.filter fun input => !isStandardInput input).filterMap id

/-- A run, whose settings are looked for at some paths. The log begins after the settings. -/
def run (files : Files) (standardInput : Reading) (paths : List String) (inv : Invocation) :
    Report :=
  match settingsOf files paths inv with
  | .error f => ⟨"", [], some f⟩
  | .ok settings =>
    let report := runJob files standardInput settings inv.job
    { report with log := Log.shown (inv.verbose || settings.verbose) report.log }

end Lexeme.Command
