import Offside.Branch
import Offside.Layout
import Offside.Loop.Header
import Offside.Naming
import Offside.Printing
import Offside.Reading
import Offside.Spelling

/-!
# Renditions

A run sends a text through a sequence of passes and keeps everything that can be observed
about it: the text behind each pass, the remarks, and the log. A rendition is what remains of
a run for a user. A strict user refuses a rendition on which there is a remark.
-/

namespace Offside

/-- Run one pass over a text. -/
def Pass.apply (text : Text) : Pass → Draft
  | reading => convertReads text
  | loops => convertLoops text
  | branches => { text := convertBranches text }
  | printing => convertPrints text
  | spelling => { text := convertSpelling text }
  | layout => convertLayout text
  | naming => convertNames text
  | closing => { text }

/-- The log of one pass, which turned a text into a draft. -/
def Pass.log (pass : Pass) (text : Text) (draft : Draft) : List Event :=
  [.passBegun pass.name] ++ draft.events ++
    (if draft.remarks = [] then [] else [.remarked draft.remarks.length]) ++
    (if draft.text = text then [] else [.textChanged (byteLength text) (byteLength draft.text)])

/-- Everything that can be observed about a run. -/
structure Run where
  /-- The text behind the last pass. -/
  final : Text
  /-- The text behind each pass. -/
  snapshots : List (Pass × Text) := []
  remarks : List Remark := []
  events : List Event := []
  deriving Repr, DecidableEq

/-- Send a text through a sequence of passes. -/
def Run.ofPasses : List Pass → Text → Run
  | [], text => { final := text }
  | pass :: passes, text =>
      let draft := pass.apply text
      let tail := ofPasses passes draft.text
      { final := tail.final
        snapshots := (pass, draft.text) :: tail.snapshots
        remarks := draft.remarks ++ tail.remarks
        events := pass.log text draft ++ tail.events }

/-- The Python text of a snippet, and the remarks on it. -/
structure Rendition where
  text : Text
  remarks : List Remark := []
  deriving Repr, DecidableEq

/-- The result of a run, without the blanks around its text. -/
def Run.rendition (run : Run) : Rendition where
  text := trim run.final
  remarks := run.remarks

namespace Rendition

/-- The rendition of a snippet by all passes. -/
def ofSnippet (snippet : Text) : Rendition :=
  (Run.ofPasses Pass.sequence snippet).rendition

/-- Whether there is no remark on a rendition. -/
def isClean (rendition : Rendition) : Bool :=
  rendition.remarks.isEmpty

/-- A rendition that a strict user has refused. -/
structure Refusal where
  rendition : Rendition
  deriving Repr, DecidableEq

/-- The wording of a refusal. -/
def Refusal.message (refusal : Refusal) : String :=
  "conversion incomplete: " ++ toString refusal.rendition.remarks.length ++
    " construct(s) left verbatim"

/-- Refuse a rendition with remarks, if the user is strict. -/
def demand (strict : Bool) (rendition : Rendition) : Except Refusal Rendition :=
  if strict && !rendition.isClean then .error ⟨rendition⟩ else .ok rendition

/-- The log of the demand made on a rendition. -/
def demandLog (strict : Bool) (rendition : Rendition) : List Event :=
  if strict && !rendition.isClean then [.refused rendition.remarks.length] else []

end Rendition

/-- Convert a snippet for a strict or a lenient user. -/
def convertWith (strict : Bool) (snippet : Text) : Except Rendition.Refusal Rendition :=
  (Rendition.ofSnippet snippet).demand strict

/-- The log of converting a snippet for a strict or a lenient user. -/
def logWith (strict : Bool) (snippet : Text) : List Event :=
  let run := Run.ofPasses Pass.sequence snippet
  run.events ++ run.rendition.demandLog strict

/-- The Python text of a Java snippet. Whatever is not understood stays as it is. -/
def toPython (snippet : String) : String :=
  String.ofList (Rendition.ofSnippet snippet.toList).text

end Offside
