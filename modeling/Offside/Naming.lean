import Offside.Draft

/-!
# Names that hide a built-in

A variable with the name of a Python built-in would hide it, so it is renamed wherever its
name stands as a whole word. A name counts as a variable when something is assigned to it
anywhere in the text.
-/

namespace Offside

/-- The built-in names that a variable must not have. -/
def builtinNames : List String :=
  ["sum", "min", "max", "list", "dict", "str", "input", "print", "len"]

/-- What is put behind a name that hides a built-in. -/
def freshEnding : String := "_var"

/-- Whether a character can start an ASCII identifier. -/
def isIdentifierStart (char : Char) : Bool :=
  char.isAlpha || char = '_'

/-- Whether a character can be part of an ASCII identifier. -/
def isIdentifierChar (char : Char) : Bool :=
  char.isAlphanum || char = '_'

/-- An identifier with an equals sign behind it. The sign is doubled in a comparison. -/
structure EqualsSign where
  identifier : Text
  doubled : Bool
  deriving Repr, DecidableEq

/-- Identifiers with an equals sign behind them. -/
def equalsSign : Recognizer EqualsSign where
  at? before text := do
    guard (opensWord before)
    guard (text.head?.any isIdentifierStart)
    let identifier := text.takeWhile isIdentifierChar
    let text ← expect? "=".toList (skipBlanks (text.dropWhile isIdentifierChar))
    match expect? "=".toList text with
    | some rest => return ({ identifier, doubled := true }, rest)
    | none => return ({ identifier, doubled := false }, text)

/-- The identifiers that are assigned to, in the order of the assignments. -/
def assignedNames (text : Text) : List Text :=
  (equalsSign.hits text).filterMap fun (_, sign) =>
    if sign.doubled then none else some sign.identifier

/-- Add a name to a list in increasing order, unless it is there already. -/
def insertName (name : Text) : List Text → List Text
  | [] => [name]
  | first :: rest =>
      if name < first then name :: first :: rest
      else if name = first then first :: rest
      else first :: insertName name rest

/-- The identifiers that are assigned to, in increasing order and without repetition. -/
def assignedNamesSorted (text : Text) : List Text :=
  (assignedNames text).foldr insertName []

/-- The built-in names that are assigned to, in the order of the table. -/
def hiddenBuiltins (text : Text) : List Text :=
  let assigned := assignedNames text
  (builtinNames.map String.toList).filter (· ∈ assigned)

/-- The name that takes the place of a name that hides a built-in. -/
def freshName (name : Text) : Text :=
  name ++ freshEnding.toList

/-- Rename one variable. -/
def rename (text name : Text) : Text :=
  (Recognizer.wholeWord name).replaceAll (fun _ => freshName name) text

/-- Rename the variables that hide a built-in. -/
def convertNames (text : Text) : Draft :=
  let hidden := hiddenBuiltins text
  { text := hidden.foldl rename text
    events := hidden.map fun name => .renamed name (freshName name) }

end Offside
