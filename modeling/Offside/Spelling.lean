import Offside.Declaration
import Offside.Text.Line
import Offside.Text.Piece

/-!
# Spelling of a line

Each line is respelled by itself: fixed spellings are replaced wherever they occur, class
headers and entry points disappear, and declarations become assignments. No line has an
effect on another.
-/

namespace Offside

/-- Fixed spellings and what stands for them, in the order in which they are replaced. -/
def spellings : List (String × String) :=
  [("System.out.println", "print"),
   ("System.out.printf", "print"),
   ("System.out.print", "print"),
   ("true", "True"),
   ("false", "False"),
   ("null", noValue),
   (";", ""),
   ("public class Main", ""),
   ("public class Fibonacci", ""),
   ("public static void main(String[] args)", ""),
   ("import java.util.Scanner", "")]

/-- Replace the fixed spellings, one after the other. -/
def respell (text : Text) : Text :=
  spellings.foldl (fun text (old, new) =>
    (Recognizer.fixed old.toList).replaceAll (fun _ => new.toList) text) text

/-- What is left of a line behind the header of a class at its start. -/
def afterClass? (line : Text) : Option Text := do
  let text := line.dropWhile isTabOrSpace
  let text := skipModifier "final" (skipModifier "public" text)
  let text ← expect? "class".toList text
  let text ← skipSome? isTabOrSpace text
  let (_, rest) ← word? text
  return rest

/-- What is left of a line behind the header of the entry point at its start. -/
def afterMain? (line : Text) : Option Text := do
  let text := skipModifier "public" (line.dropWhile isTabOrSpace)
  let text ← expect? "static".toList text
  let text ← skipSome? isTabOrSpace text
  let text ← expect? "void".toList text
  let text ← skipSome? isTabOrSpace text
  let text ← expect? "main".toList text
  let text ← expect? "(".toList (text.dropWhile isTabOrSpace)
  expect? ")".toList (text.dropWhile (· ≠ ')'))

/-- Put assignments in the place of a declaration. -/
def respellDeclaration (line : Text) : Text :=
  ((Declaration.ofLine? line).map Declaration.render).getD line

/-- Respell a line. -/
def respellLine (line : Text) : Text :=
  let line := respell line
  let line := (afterClass? line).getD line
  let line := (afterMain? line).getD line
  respellDeclaration line

/-- Respell every line of a text. -/
def convertSpelling (text : Text) : Text :=
  unlines ((lines text).map respellLine)

end Offside
