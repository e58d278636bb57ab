import Offside.CommandLine.Outcome

/-!
# The program

Reads the arguments and the source that they name, prints the outcome, and exits with its
code. Arguments that make no request give exit code 2.
-/

namespace Offside.CommandLine

/-- The reason for a failed read. -/
def ReadFailure.ofError : IO.Error → ReadFailure
  | .noFileOrDirectory .. => missing
  | .inappropriateType .. => directory
  | error => other (toString error)

/-- Read a source. -/
def Source.read (source : Source) : IO (Except ReadFailure String) := do
  try
    let bytes ← match source with
      | .standardInput => (← IO.getStdin).readBinToEnd
      | .file name => IO.FS.readBinFile name
    return decode bytes
  catch error =>
    return .error (.ofError error)

/-- Whether colours are wanted: when they are forced, or on a terminal unless refused. -/
def wantsColour : IO Bool := do
  if ((← IO.getEnv "CLICOLOR_FORCE").getD "0") ≠ "0" then
    return true
  else if (← IO.getEnv "NO_COLOR").isSome then
    return false
  else
    return ((← IO.getEnv "CLICOLOR").getD "1") ≠ "0" && (← (← IO.getStdout).isTty)

/-- Answer a request. -/
def Request.answer (request : Request) : IO UInt32 := do
  let snippet ← match request with
    | .run command => (command.source?.map Source.read).getD (pure (.ok ""))
    | .version => pure (.ok "")
  let outcome := request.outcome (← wantsColour) fun _ => snippet
  IO.print outcome.output
  IO.eprint outcome.errors
  return outcome.exitCode.toUInt32

end Offside.CommandLine

/-- The entry point of the program. -/
def main (words : List String) : IO UInt32 :=
  match Offside.CommandLine.Request.ofArguments? words with
  | some request => request.answer
  | none => do
      IO.eprintln "Usage: j2py [-v] convert [FILE] [-s] [-d] | check [FILE] | demo"
      return 2
