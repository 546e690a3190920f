/-
Lexeme.Main — the program.

It reads what a run may look at, asks for the answer and prints it.
-/
import Lexeme.Command.Reply

namespace Lexeme

/-- The number of a system error, which some calls give with a minus sign. -/
def systemErrorNumber (code : UInt32) : UInt32 :=
  if code < 0x80000000 then code else 0 - code

/-- The reason of a failed reading. -/
def readErrorOf (e : IO.Error) : ReadError :=
  match e with
  | .noFileOrDirectory .. => .notFound
  | .noSuchThing .. => .notFound
  | .invalidArgument _ code _ =>
    if systemErrorNumber code == 36 then .nameTooLong else .other (toString e)
  | .inappropriateType _ code _ =>
    if systemErrorNumber code == 20 then .notDirectory
    else if systemErrorNumber code == 21 then .isDirectory
    else .other (toString e)
  | _ => .other (toString e)

/-- Reads the file at a path. -/
def readFileAt (path : String) : IO Reading := do
  try
    let bytes ← IO.FS.readBinFile path
    return .ok bytes.data.toList
  catch e =>
    return .error (readErrorOf e)

/-- Reads standard input to its end. -/
def readStandardInput : IO Reading := do
  try
    let bytes ← (← IO.getStdin).readBinToEnd
    return .ok bytes.data.toList
  catch e =>
    return .error (readErrorOf e)

/-- The variables that the program looks at. -/
def readVariables : IO Command.Variables := do
  let names := ["TOKT_VERBOSE", "TOKT_CONFIG", "TOKT_NO_COLOR", "HOME", "XDG_CONFIG_HOME"]
  let values ← names.mapM fun name => do return (name, ← IO.getEnv name)
  return fun name => (values.lookup name).join

end Lexeme

open Lexeme in
def main (args : List String) : IO UInt32 := do
  let env ← readVariables
  let (readings, standardInput) ←
    match Command.Invocation.read env args with
    | .error _ => pure ([], .ok [])
    | .ok inv => do
      let readings ← (inv.files (Command.settingsPaths env)).mapM fun path => do
        return (path, ← readFileAt path)
      let standardInput ←
        if inv.job.inputs.any Command.isStandardInput then readStandardInput else pure (.ok [])
      pure (readings, standardInput)
  let reply := Command.Reply.answer env (Files.ofReadings readings) standardInput args
  IO.print reply.output
  for line in reply.logLines do
    IO.eprintln line
  if reply == .mistake then
    IO.eprintln "error: invalid command line\n\nFor more information, try \x27--help\x27."
  for line in reply.errorLine do
    IO.eprintln line
  return reply.exitCode.toUInt32
