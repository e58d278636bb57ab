import Offside.Draft
import Offside.Text.Decimal

/-!
# Counted loops as ranges

The three clauses of a counted loop, and the range that runs through the same values. The
condition has to compare a variable with a bound, the update has to move by a literal step,
and the comparison has to be an order; each failure has a reason of its own. A downward
comparison always gets a downward step.
-/

namespace Offside

/-- The comparisons that bound a range. -/
inductive Comparison where
  | below
  | atMost
  | above
  | atLeast
  deriving Repr, DecidableEq

namespace Comparison

/-- The comparison written by some marks. -/
def ofMarks? (marks : Text) : Option Comparison :=
  if marks = "<".toList then some below
  else if marks = "<=".toList then some atMost
  else if marks = ">".toList then some above
  else if marks = ">=".toList then some atLeast
  else none

/-- The end of a range, which a range leaves out. -/
def stop (bound : Text) : Comparison → Text
  | below | above => bound
  | atMost => bound ++ " + 1".toList
  | atLeast => bound ++ " - 1".toList

/-- A step in the direction of the comparison, where the comparison demands one. -/
def direct (step : Int) : Comparison → Int
  | below | atMost => step
  | above | atLeast => if 0 < step then -step else step

end Comparison

/-- Whether a character can be part of a comparison. -/
def isComparisonMark (char : Char) : Bool :=
  char ∈ "<>=!".toList

/-- The operand behind an operator: the rest of the text without the blanks around it. It has
to be there and to stand on one line, but it may consist of blanks alone. -/
def operand? (text : Text) : Option Text :=
  match skipBlanks text with
  | [] =>
      match text.getLast? with
      | some char => if char = '\n' then none else some []
      | none => none
  | operand => if '\n' ∈ operand then none else some (trimEnd operand)

/-- The marks and the bound of a condition that compares a word with a bound. When nothing
stands behind two or more marks, the last of them is taken for the bound. -/
def comparison? (condition : Text) : Option (Text × Text) := do
  let (_, behind) ← word? (skipBlanks condition)
  let behind := skipBlanks behind
  let marks := behind.takeWhile isComparisonMark
  let rest := behind.dropWhile isComparisonMark
  guard (marks ≠ [])
  match operand? rest with
  | some bound => return (marks, bound)
  | none =>
      guard (rest = [] ∧ 2 ≤ marks.length)
      return (marks.dropLast, marks.drop (marks.length - 1))

/-- The direction of a compound update. -/
inductive Direction where
  | up
  | down
  deriving Repr, DecidableEq

/-- The direction and the operand of an update such as `x += 2`. -/
def movement? (update : Text) : Option (Direction × Text) := do
  let (_, behind) ← word? (skipBlanks update)
  match skipBlanks behind with
  | '+' :: '=' :: rest => return (.up, ← operand? rest)
  | '-' :: '=' :: rest => return (.down, ← operand? rest)
  | _ => none

/-- Whether a mark stands at the start or at the end of a text. -/
def flankedBy (mark text : Text) : Bool :=
  mark.isPrefixOf text || mark.isSuffixOf text

/-- The step of an update, without the blanks around it. A step has to be a literal, must not
be zero, and has to fit a word after its direction is applied. -/
def stepOf (update : Text) : Except Reason Int :=
  if flankedBy "++".toList update then
    .ok 1
  else if flankedBy "--".toList update then
    .ok (-1)
  else
    match movement? update with
    | none => .error (.updateShape update)
    | some (direction, operand) =>
        match Decimal.word? operand, direction with
        | none, _ => .error (.stepNotLiteral operand)
        | some step, .up => if step = 0 then .error (.updateShape update) else .ok step
        | some step, .down =>
            if step = 0 ∨ step = Decimal.wordMin then .error (.updateShape update)
            else .ok (-step)

/-- The header of a loop over a range. -/
structure RangeHeader where
  counter : Text
  start : Text
  stop : Text
  step : Int
  deriving Repr, DecidableEq

/-- A range header in Python. The step is written unless it is one. -/
def RangeHeader.render (header : RangeHeader) : Text :=
  "for ".toList ++ header.counter ++ " in range(".toList ++ header.start ++ ", ".toList ++
    header.stop ++
    (if header.step = 1 then [] else ", ".toList ++ Decimal.ofInt header.step) ++ "):".toList

/-- The clauses of a counted loop, as they are written. -/
structure LoopClauses where
  counter : Text
  start : Text
  condition : Text
  update : Text
  deriving Repr, DecidableEq

namespace LoopClauses

/-- The range of a counted loop, or the reason why there is none. A condition out of shape is
found first, then a bad step, then a comparison that is no order. -/
def range (clauses : LoopClauses) : Except Reason RangeHeader :=
  match comparison? clauses.condition with
  | none => .error (.conditionShape (trim clauses.condition))
  | some (marks, bound) =>
      match stepOf (trim clauses.update) with
      | .error reason => .error reason
      | .ok step =>
          match Comparison.ofMarks? marks with
          | none => .error (.comparisonWithoutRange marks)
          | some comparison =>
              .ok {
                counter := clauses.counter
                start := trim clauses.start
                stop := comparison.stop bound
                step := comparison.direct step }

/-- What becomes of the header of a counted loop. -/
def verdict (clauses : LoopClauses) : Verdict :=
  match clauses.range with
  | .ok header => .replace header.render
  | .error reason => .keep reason

end LoopClauses

end Offside
