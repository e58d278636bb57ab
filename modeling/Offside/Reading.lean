import Offside.Draft
import Offside.Pass

/-!
# Console input

The declaration of a console reader disappears, and reading a value from it becomes a call
of `input`, coerced as the method asks. A read by an unknown method is kept. Lines are
counted in the text without the reader declarations.
-/

namespace Offside

/-- The methods that read a value, each with the coercion of what was read. -/
def readCoercions : List (String × Option String) :=
  [("nextInt", some "int"), ("nextDouble", some "float"), ("nextLine", none), ("next", none)]

/-- Declarations of a console reader. -/
def consoleReader : Recognizer Unit where
  at? _ text := do
    let text ← expect? "Scanner".toList text
    let text ← skipSome? isBlank text
    let (_, text) ← word? text
    let text ← expect? "=".toList (skipBlanks text)
    let text ← expect? "new".toList (skipBlanks text)
    let text ← skipSome? isBlank text
    let text ← expect? "Scanner(".toList text
    let (_, rest) ← shortest? (expect? ");".toList) text
    return ((), rest)

/-- A variable that is assigned what a method reads. -/
structure ReadStatement where
  target : Text
  method : Text
  deriving Repr, DecidableEq

/-- Statements that read a value. -/
def readStatement : Recognizer ReadStatement where
  at? before text := do
    guard (opensWord before)
    let (target, text) ← word? text
    let text ← expect? "=".toList (skipBlanks text)
    let (_, text) ← word? (skipBlanks text)
    let text ← expect? ".".toList text
    let (method, text) ← word? text
    guard ("next".toList.isPrefixOf method)
    let rest ← expect? "();".toList text
    return ({ target, method }, rest)

/-- What becomes of a statement that reads a value. -/
def ReadStatement.verdict (statement : ReadStatement) : Verdict :=
  match readCoercions.find? fun entry => entry.1.toList = statement.method with
  | some (_, some coercion) =>
      .replace (statement.target ++ " = ".toList ++ coercion.toList ++ "(input())".toList)
  | some (_, none) => .replace (statement.target ++ " = input()".toList)
  | none => .keep (.unknownReadMethod statement.method)

/-- Remove the declarations of console readers. -/
def dropReaders (text : Text) : Text :=
  consoleReader.replaceAll (fun _ => []) text

/-- Put calls of `input` in the place of reads. -/
def convertReads (text : Text) : Draft :=
  readStatement.edit Pass.reading.name (fun _ _ statement => statement.verdict) (dropReaders text)

end Offside
