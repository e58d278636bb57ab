import Offside.Text.Blank
import Offside.Text.Word

/-!
# Recognisers

A recogniser says whether a construct starts at a position of a text, what it holds, and
what is left behind it. It sees the character in front of the position, which decides
whether a word can start there, and the whole rest of the text.
-/

namespace Offside

/-- A kind of construct that can start at a position of a text. -/
structure Recognizer (α : Type) where
  /-- The construct at the front of a text and what is left behind it, given the character
  in front of the text. -/
  at? : (before : Option Char) → Text → Option (α × Text)

/-- What is left behind a fixed text at the front. -/
def expect? : (fixed text : Text) → Option Text
  | [], text => some text
  | _ :: _, [] => none
  | wanted :: fixed, char :: text => if char = wanted then expect? fixed text else none

theorem expect?_eq_some {fixed text rest : Text} :
    expect? fixed text = some rest ↔ text = fixed ++ rest := by
  induction fixed generalizing text with
  | nil => simp [expect?]
  | cons wanted fixed ih =>
      cases text with
      | nil => simp [expect?]
      | cons char text => by_cases same : char = wanted <;> simp [expect?, same, ih]

@[simp] theorem expect?_append (fixed rest : Text) :
    expect? fixed (fixed ++ rest) = some rest :=
  expect?_eq_some.2 rfl

/-- What is left behind one or more characters of a class. -/
def skipSome? (member : Char → Bool) : Text → Option Text
  | [] => none
  | char :: rest => if member char then some (rest.dropWhile member) else none

/-- The shortest start of a text behind which `stop?` succeeds, and what `stop?` found
there. The start holds no newline. -/
def shortest? {β : Type} (stop? : Text → Option β) : Text → Option (Text × β)
  | [] => (stop? []).map fun found => ([], found)
  | char :: rest =>
      match stop? (char :: rest) with
      | some found => some ([], found)
      | none =>
          if char = '\n' then none
          else (shortest? stop? rest).map fun (start, found) => (char :: start, found)

namespace Recognizer

/-- Occurrences of a fixed text. -/
def fixed (text : Text) : Recognizer Unit where
  at? _ here := (expect? text here).map fun rest => ((), rest)

/-- Occurrences of a fixed text as a whole word. -/
def wholeWord (word : Text) : Recognizer Unit where
  at? before here := do
    guard (opensWord before)
    let rest ← expect? word here
    guard (closesWord rest)
    return ((), rest)

/-- Runs of ASCII digits. -/
def digits : Recognizer Unit where
  at? _ here := (skipSome? Char.isDigit here).map fun rest => ((), rest)

/-- Runs of ASCII digits, and the empty places between other characters. -/
def digitsOrNothing : Recognizer Unit where
  at? _ here := some ((), here.dropWhile Char.isDigit)

end Recognizer

end Offside
