import Offside.Loop.Range
import Offside.Pass

/-!
# Headers of counted loops

A counted loop starts with `for`, an assignment, a condition and an update in parentheses.
Each clause stands on one line, but the clauses may stand on different lines. A clause is as
short as the clauses behind it allow.
-/

namespace Offside

/-- The types that the counter of a loop may be declared with. -/
def counterTypes : List String :=
  ["int", "long", "short", "byte", "double", "float"]

/-- The counter of a loop, behind its type if it has one. -/
def counter? (text : Text) : Option (Text × Text) := do
  let (first, behind) ← word? text
  if counterTypes.any fun type => type.toList = first then
    match skipSome? isBlank behind >>= word? with
    | some second => return second
    | none => return (first, behind)
  else
    return (first, behind)

/-- The update of a loop, up to the closing parenthesis. -/
def updateClause? (text : Text) : Option (Text × Text) :=
  shortest? (fun here => expect? ")".toList (skipBlanks here)) (skipBlanks text)

/-- The condition and the update of a loop. -/
def conditionClause? (text : Text) : Option (Text × Text × Text) :=
  shortest? (fun here => expect? ";".toList here >>= updateClause?) (skipBlanks text)

/-- The start value, the condition and the update of a loop. -/
def startClause? (text : Text) : Option (Text × Text × Text × Text) :=
  shortest? (fun here => expect? ";".toList here >>= conditionClause?) (skipBlanks text)

/-- Headers of counted loops. -/
def countedLoop : Recognizer LoopClauses where
  at? before text := do
    guard (opensWord before)
    let text ← expect? "for".toList text
    let text ← expect? "(".toList (skipBlanks text)
    let (counter, text) ← counter? (skipBlanks text)
    let text ← expect? "=".toList (skipBlanks text)
    let (start, condition, update, rest) ← startClause? text
    return ({ counter, start, condition, update }, rest)

/-- Put ranges in the place of counted loops. -/
def convertLoops (text : Text) : Draft :=
  countedLoop.edit Pass.loops.name (fun _ _ clauses => clauses.verdict) text

end Offside
