import Offside.Text.Basic

/-!
# Remarks

A remark says why a construct was kept as it stands, or changed with a doubt. The causes
form a closed list; their wording is fixed here and nowhere else.
-/

namespace Offside

/-- Why a construct deserves a remark. -/
inductive Reason where
  /-- The condition of a loop compares no variable with a bound. -/
  | conditionShape (condition : Text)
  /-- The comparison of a loop has no counterpart among ranges. -/
  | comparisonWithoutRange (comparison : Text)
  /-- The update of a loop is no increment or decrement. -/
  | updateShape (update : Text)
  /-- The step of a loop is no integer literal. -/
  | stepNotLiteral (step : Text)
  /-- A value is read by a method that is not in the table. -/
  | unknownReadMethod (method : Text)
  /-- A printed argument was cut at a `+` that need not be a concatenation. -/
  | doubtfulPlus (arguments : Text)
  /-- A block is closed that nothing has opened. -/
  | strayClose
  deriving Repr, DecidableEq

namespace Reason

/-- The part of the source that a reason is about. -/
def detail? : Reason → Option Text
  | conditionShape detail | comparisonWithoutRange detail | updateShape detail
  | stepNotLiteral detail | unknownReadMethod detail | doubtfulPlus detail => some detail
  | strayClose => none

/-- The wording of a reason. -/
def message : Reason → String
  | conditionShape condition =>
      "loop condition '" ++ .ofList condition ++ "' is not of the form `ident op expr`"
  | comparisonWithoutRange comparison =>
      "loop operator '" ++ .ofList comparison ++ "' has no range equivalent"
  | updateShape update =>
      "loop update '" ++ .ofList update ++ "' is not `++`, `--`, `+=` or `-=`"
  | stepNotLiteral step =>
      "loop step '" ++ .ofList step ++ "' is not an integer literal"
  | unknownReadMethod method =>
      "unknown read method '" ++ .ofList method ++ "' left untouched"
  | doubtfulPlus arguments =>
      "print arguments '" ++ .ofList arguments ++ "' were split on every `+`"
  | strayClose => "closing delimiter without an open block"

end Reason

/-- A reason together with the construct it is about. -/
structure Remark where
  /-- Name of the pass that made the remark. -/
  origin : String
  /-- Line on which the construct starts, in the text that the pass searches for constructs. That
  is the text handed to it, for console input without the declarations of readers. -/
  line : Nat
  reason : Reason
  /-- The construct as it stands in the searched text. -/
  snippet : Text
  deriving Repr, DecidableEq

/-- A remark in one line. -/
def Remark.message (remark : Remark) : String :=
  "[" ++ remark.origin ++ "] line " ++ toString remark.line ++ ": " ++ remark.reason.message

end Offside
