import Offside.Text.Quoting
import Offside.Text.Recognizer

/-!
# Declarations

A declaration on a line becomes one assignment for each of its declarators. A declarator
without an initial value is assigned `None`.
-/

namespace Offside

/-- What a variable without a value is assigned, and what stands for a missing object. -/
def noValue : String := "None"

/-- Whether a character is one that source lines are indented with. -/
def isTabOrSpace (char : Char) : Bool :=
  char = ' ' || char = '\t'

/-- Cut at the commas that stand outside literals and outside parentheses and brackets. A
closing mark that nothing has opened is ignored. -/
def splitCommasFrom : (depth : Nat) → List (Char × Quoting) → List Text
  | _, [] => [[]]
  | depth, (char, quoting) :: rest =>
      let depthBehind :=
        if quoting ≠ .outside then depth
        else if char = '(' ∨ char = '[' then depth + 1
        else if char = ')' ∨ char = ']' then depth - 1
        else depth
      let parts := splitCommasFrom depthBehind rest
      if quoting = .outside ∧ char = ',' ∧ depth = 0 then
        [] :: parts
      else
        match parts with
        | [] => [[char]]
        | part :: others => (char :: part) :: others

/-- The parts of a text between its outermost commas. -/
def splitCommas (text : Text) : List Text :=
  splitCommasFrom 0 (Quoting.outside.annotate text)

/-- The assignment of a declarator. -/
def assignment (indent declarator : Text) : Text :=
  if '=' ∈ declarator then indent ++ declarator
  else indent ++ declarator ++ " = ".toList ++ noValue.toList

/-- The assignments of a list of declarators, one on each line behind the same indentation. Empty
declarators are passed over. -/
def assignments (indent declarators : Text) : Text :=
  joinWith ['\n'] <|
    (((splitCommas declarators).map trim).filter (· ≠ [])).map (assignment indent)

/-- The types that start a declaration. -/
def declaredTypes : List String :=
  ["byte", "short", "int", "long", "double", "float", "String", "boolean", "char"]

/-- Pass over a modifier and the blanks behind it, if it stands there. -/
def skipModifier (modifier : String) (text : Text) : Text :=
  (expect? modifier.toList text >>= skipSome? isTabOrSpace).getD text

/-- What stands behind a declared type, from the blank behind it on. -/
def behindType? (text : Text) : Option Text :=
  declaredTypes.findSome? fun type => do
    let behind ← expect? type.toList text
    guard (behind.head?.any isTabOrSpace)
    return behind

/-- A declaration on a line of its own. -/
structure Declaration where
  indent : Text
  declarators : Text
  deriving Repr, DecidableEq

namespace Declaration

/-- The declaration on a line without a terminator. Behind the type there have to be two
characters at least, the first of them a blank. -/
def ofLine? (line : Text) : Option Declaration := do
  let indent := line.takeWhile isTabOrSpace
  let behind ← behindType? (skipModifier "final" (line.dropWhile isTabOrSpace))
  guard (2 ≤ behind.length)
  return { indent, declarators := trimEnd (behind.dropWhile isTabOrSpace) }

/-- A declaration in Python. -/
def render (declaration : Declaration) : Text :=
  assignments declaration.indent declaration.declarators

end Declaration

end Offside
