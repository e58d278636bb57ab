import Offside.CommandLine.Arguments
import Offside.CommandLine.Style
import Offside.Demo
import Offside.Transcript

/-!
# Outcomes

What the program prints for a request, and how it exits. Reading a source is the only thing
that can fail besides a strict conversion; both are told on the error output.
-/

namespace Offside.CommandLine

/-- Why a source could not be read. -/
inductive ReadFailure where
  | missing
  | directory
  | invalidEncoding
  | other (description : String)
  deriving Repr, DecidableEq

/-- The wording of a read failure. -/
def ReadFailure.message : ReadFailure → String
  | missing => "No such file or directory (os error 2)"
  | directory => "Is a directory (os error 21)"
  | invalidEncoding => "stream did not contain valid UTF-8"
  | other description => description

/-- The text of a source, if its bytes are valid UTF-8. -/
def decode (bytes : ByteArray) : Except ReadFailure String :=
  match String.fromUTF8? bytes with
  | some text => .ok text
  | none => .error .invalidEncoding

/-- What the program prints, and its exit code. -/
structure Outcome where
  exitCode : Nat := 0
  output : String := ""
  errors : String := ""
  deriving Repr, DecidableEq

/-- The name and the version of the program. -/
def versionLine : String := "j2py 0.1.0\n"

/-- Remarks as they are listed, two lines each. -/
def listing (colour : Bool) (remarks : List Remark) : String :=
  String.join <| remarks.map fun remark =>
    "  " ++ paint colour .yellow ("[" ++ remark.origin ++ "]") ++ " line " ++
      toString remark.line ++ ": " ++ remark.reason.message ++ "\n" ++
    "      " ++ paint colour .dimmed (String.ofList (trim remark.snippet)) ++ "\n"

/-- The word that opens an error. -/
def errorWord (colour : Bool) : String :=
  paint colour .boldRed "Error:" ++ " "

/-- A source could not be read. -/
def unreadable (colour : Bool) (source : Source) (failure : ReadFailure) : Outcome where
  exitCode := 1
  errors := errorWord colour ++ "cannot read " ++ source.name ++ ": " ++ failure.message ++ "\n"

/-- Convert a snippet. -/
def convert (colour strict : Bool) (snippet : Text) : Outcome :=
  match convertWith strict snippet with
  | .error refusal =>
      { exitCode := 1
        errors := errorWord colour ++ refusal.message ++ "\n" ++
          listing colour refusal.rendition.remarks }
  | .ok rendition =>
      { output := String.ofList rendition.text ++ "\n"
        errors :=
          if rendition.isClean then ""
          else
            paint colour .boldYellow "Warning:" ++ " " ++
              toString rendition.remarks.length ++ " construct(s) left verbatim\n" ++
              listing colour rendition.remarks }

/-- Tell what a conversion would leave as it is. -/
def check (colour : Bool) (snippet : Text) : Outcome :=
  let remarks := (Rendition.ofSnippet snippet).remarks
  if remarks.isEmpty then
    { output := paint colour .boldGreen "✓ Every recognised construct converts" ++ "\n" }
  else
    { exitCode := 1
      output := paint colour .bold "Found" ++ " " ++
        paint colour .red (toString remarks.length ++ " issue(s)") ++ "\n"
      errors := listing colour remarks }

/-- Carry out a command, given what can be read from the sources. A transcript is never
refused. -/
def Command.outcome (colour : Bool) (read : Source → Except ReadFailure String) :
    Command → Outcome
  | .convert source strict debug =>
      match read source with
      | .error failure => unreadable colour source failure
      | .ok snippet =>
          if debug then { output := (Transcript.ofSnippet snippet.toList).render }
          else CommandLine.convert colour strict snippet.toList
  | .check source =>
      match read source with
      | .error failure => unreadable colour source failure
      | .ok snippet => CommandLine.check colour snippet.toList
  | .demo => { output := Offside.demo ++ "\n" }

/-- The source that a command reads. -/
def Command.source? : Command → Option Source
  | .convert source _ _ | .check source => some source
  | .demo => none

/-- Carry out a request. -/
def Request.outcome (colour : Bool) (read : Source → Except ReadFailure String) :
    Request → Outcome
  | .version => { output := versionLine }
  | .run command => command.outcome colour read

end Offside.CommandLine
