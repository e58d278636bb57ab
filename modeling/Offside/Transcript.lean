import Offside.Rendition

/-!
# Transcripts

A conversion told step by step: the snippet, the text behind each pass, the output, and the
remarks.
-/

namespace Offside

/-- A conversion with the text behind each pass. -/
structure Transcript where
  snippet : Text
  steps : List (Pass × Text)
  output : Text
  remarks : List Remark
  deriving Repr, DecidableEq

namespace Transcript

/-- The transcript of the full conversion of a snippet. -/
def ofSnippet (snippet : Text) : Transcript :=
  let run := Run.ofPasses Pass.sequence snippet
  { snippet
    steps := run.snapshots
    output := run.rendition.text
    remarks := run.remarks }

/-- A transcript as it is printed. -/
def render (transcript : Transcript) : String :=
  let steps := transcript.steps.map fun (pass, step) =>
    "--- after " ++ pass.name ++ " ---\n" ++ String.ofList (trim step) ++ "\n\n"
  let remarks := transcript.remarks.map fun remark => "  " ++ remark.message ++ "\n"
  "Conversion Report\n=================\nInput:\n" ++ String.ofList (trim transcript.snippet) ++
    "\n\n" ++ String.join steps ++
    "Output:\n" ++ String.ofList transcript.output ++ "\n" ++
    (if remarks.isEmpty then "" else "\nDiagnostics:\n" ++ String.join remarks)

end Transcript

end Offside
