import Offside.Draft
import Offside.Pass
import Offside.Text.Quoting

/-!
# Console output

A print call becomes a call of `print`, with the operands of its concatenation as separate
arguments. The argument is cut at every `+`, whatever it stands for, so a call in which a
`+` stands inside a literal or inside parentheses is flagged.
-/

namespace Offside

/-- The sign between two operands, with the blanks around it. -/
def plusSign : Recognizer Unit where
  at? _ text := do
    let rest ← expect? "+".toList (skipBlanks text)
    return ((), skipBlanks rest)

/-- Separate the operands of a concatenation by commas. -/
def spreadOperands (arguments : Text) : Text :=
  plusSign.replaceAll (fun _ => ", ".toList) arguments

/-- Whether a `+` stands inside a literal, other than behind a backslash, or inside
parentheses. A closing parenthesis that nothing has opened is ignored. -/
def hasInnerPlus : (depth : Nat) → List (Char × Quoting) → Bool
  | _, [] => false
  | depth, (char, .outside) :: rest =>
      if char = '+' then 0 < depth || hasInnerPlus depth rest
      else if char = '(' then hasInnerPlus (depth + 1) rest
      else if char = ')' then hasInnerPlus (depth - 1) rest
      else hasInnerPlus depth rest
  | depth, (char, .inside _) :: rest => char = '+' || hasInnerPlus depth rest
  | depth, (_, .escaped _) :: rest => hasInnerPlus depth rest

/-- Whether cutting an argument at every `+` may cut too much. -/
def plusIsDoubtful (arguments : Text) : Bool :=
  hasInnerPlus 0 (Quoting.outside.annotate arguments)

/-- What a call prints behind its arguments. -/
inductive Ending where
  | newline
  | nothing
  deriving Repr, DecidableEq

/-- The ending of a print method. -/
def Ending.ofMethod (method : Text) : Ending :=
  if method = "print".toList then nothing else newline

/-- A call of a print method. -/
structure PrintStatement where
  ending : Ending
  arguments : Text
  deriving Repr, DecidableEq

/-- Calls of `System.out.print` and `System.out.println` as statements. -/
def printStatement : Recognizer PrintStatement where
  at? _ text := do
    let text ← expect? "System.out.print".toList text
    let (ending, text) := match expect? "ln".toList text with
      | some text => (Ending.newline, text)
      | none => (Ending.nothing, text)
    let text ← expect? "(".toList (skipBlanks text)
    let (arguments, rest) ← shortest? (expect? ");".toList) text
    return ({ ending, arguments }, rest)

namespace PrintStatement

/-- A print call in Python. -/
def render (statement : PrintStatement) : Text :=
  let operands := spreadOperands (trim statement.arguments)
  match statement.ending, operands with
  | .newline, _ => "print(".toList ++ operands ++ ")".toList
  | .nothing, [] => "print(end='')".toList
  | .nothing, _ => "print(".toList ++ operands ++ ", end='')".toList

/-- What becomes of a print statement. -/
def verdict (statement : PrintStatement) : Verdict :=
  if plusIsDoubtful statement.arguments then
    .flag statement.render (.doubtfulPlus (trim statement.arguments))
  else
    .replace statement.render

end PrintStatement

/-- Put calls of `print` in the place of print calls. -/
def convertPrints (text : Text) : Draft :=
  printStatement.edit Pass.printing.name (fun _ _ statement => statement.verdict) text

end Offside
