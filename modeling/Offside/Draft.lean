import Offside.Event
import Offside.Text.Line
import Offside.Text.Piece

/-!
# Drafts and verdicts

A pass turns a text into a draft: the new text, the remarks on it, and the events on the
way. Most passes look for one kind of construct and give a verdict on each hit; `edit` puts
the outcomes between the gaps and collects the remarks in the order of the hits.
-/

namespace Offside

/-- The result of a pass. -/
structure Draft where
  text : Text
  remarks : List Remark := []
  events : List Event := []
  deriving Repr, DecidableEq

/-- What becomes of a construct. -/
inductive Verdict where
  /-- Put a text in its place. -/
  | replace (text : Text)
  /-- Put a text in its place, with a remark. -/
  | flag (text : Text) (reason : Reason)
  /-- Keep it as it stands, with a remark. -/
  | keep (reason : Reason)
  deriving Repr, DecidableEq

namespace Verdict

/-- The text that stands in the place of a construct. -/
def outcome (matched : Text) : Verdict → Text
  | replace text | flag text _ => text
  | keep _ => matched

/-- The reason for a remark, if there is to be one. -/
def reason? : Verdict → Option Reason
  | replace _ => none
  | flag _ reason | keep reason => some reason

/-- The event that records a verdict on the construct of a line. -/
def event (origin : String) (line : Nat) (matched : Text) : Verdict → Event
  | replace text | flag text _ => .replaced origin matched text
  | keep reason => .kept origin line reason

end Verdict

variable {α : Type}

/-- Give a verdict on each hit among pieces that start at a line. The verdict may depend on
the number of hits in front of it. -/
def editPieces (origin : String) (judge : Nat → Text → α → Verdict) :
    (index line : Nat) → List (Piece α) → Draft
  | _, _, [] => { text := [] }
  | index, line, .gap char :: rest =>
      let tail := editPieces origin judge index (line + newlines [char]) rest
      { tail with text := char :: tail.text }
  | index, line, .hit matched value :: rest =>
      let verdict := judge index matched value
      let tail := editPieces origin judge (index + 1) (line + newlines matched) rest
      { text := verdict.outcome matched ++ tail.text
        remarks := (verdict.reason?.map fun reason =>
          { origin, line, reason, snippet := matched }).toList ++ tail.remarks
        events := verdict.event origin line matched :: tail.events }

/-- Give a verdict on each hit of a recogniser. -/
def Recognizer.edit (recognizer : Recognizer α) (origin : String)
    (judge : Nat → Text → α → Verdict) (text : Text) : Draft :=
  editPieces origin judge 0 1 (recognizer.pieces text)

end Offside
