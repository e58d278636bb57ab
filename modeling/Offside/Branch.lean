import Offside.Text.Piece

/-!
# Headers of branches

The parentheses around a condition and the brace behind it give way to a colon. The brace
that closes the branch before an `else` goes with it, also across lines. A condition stands on
one line and ends at the first closing parenthesis that a brace follows.
-/

namespace Offside

/-- A condition in parentheses with the opening brace behind it. -/
def condition? (text : Text) : Option (Text × Text) := do
  let text ← expect? "(".toList (skipBlanks text)
  shortest? (fun here => do
    let here ← expect? ")".toList here
    expect? "\x7b".toList (skipBlanks here)) text

/-- The word `else`, with the closing brace in front of it if there is one. -/
def else? (before : Option Char) : Text → Option Text
  | '}' :: rest => expect? "else".toList (skipBlanks rest)
  | text => do
      guard (opensWord before)
      expect? "else".toList text

/-- Headers of the form `else if (…) {`, with their conditions. -/
def elseIfHeader : Recognizer Text where
  at? before text := do
    let text ← else? before text
    let text ← skipSome? isBlank text
    let text ← expect? "if".toList text
    condition? text

/-- Headers of the form `if (…) {`, with their conditions. -/
def ifHeader : Recognizer Text where
  at? before text := do
    guard (opensWord before)
    let text ← expect? "if".toList text
    condition? text

/-- Headers of the form `else {`. -/
def elseHeader : Recognizer Unit where
  at? before text := do
    let text ← else? before text
    let rest ← expect? "\x7b".toList (skipBlanks text)
    return ((), rest)

/-- Put Python headers in the place of branch headers. The chained headers come first, so that
the others no longer see them. -/
def convertBranches (text : Text) : Text :=
  let text := elseIfHeader.replaceAll
    (fun condition => "elif ".toList ++ condition ++ ":".toList) text
  let text := ifHeader.replaceAll
    (fun condition => "if ".toList ++ condition ++ ":".toList) text
  elseHeader.replaceAll (fun _ => "else:".toList) text

end Offside
