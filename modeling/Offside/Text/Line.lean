import Offside.Text.Basic

/-!
# Lines

A text is cut into lines at each newline character and at nothing else, so there is always
at least one line. Lines are numbered from one.
-/

namespace Offside

/-- The lines of a text, without their newlines. -/
def lines : Text → List Text
  | [] => [[]]
  | char :: rest =>
      if char = '\n' then
        [] :: lines rest
      else
        match lines rest with
        | [] => [[char]]
        | line :: others => (char :: line) :: others

/-- Join lines with newlines. -/
def unlines (texts : List Text) : Text :=
  joinWith ['\n'] texts

theorem lines_ne_nil (text : Text) : lines text ≠ [] := by
  cases text with
  | nil => simp [lines]
  | cons char rest =>
      simp only [lines]
      split
      · simp
      · split <;> simp

@[simp] theorem unlines_lines (text : Text) : unlines (lines text) = text := by
  induction text with
  | nil => rfl
  | cons char rest ih =>
      have nonempty := lines_ne_nil rest
      simp only [lines]
      cases cut : lines rest with
      | nil => exact absurd cut nonempty
      | cons line others =>
          rw [cut] at ih
          by_cases newline : char = '\n'
          · simp [newline, unlines, joinWith, ← ih]
          · cases others <;> simp_all [unlines, joinWith]

/-- Number of newlines of a text. -/
def newlines (text : Text) : Nat :=
  text.count '\n'

/-- The line, counted from one, on which the character at a byte offset stands. There is
none past the end of the text or in the middle of a character. -/
def lineAt? : Text → Nat → Option Nat
  | _, 0 => some 1
  | [], _ + 1 => none
  | char :: rest, offset + 1 =>
      if char.utf8Size ≤ offset + 1 then
        (lineAt? rest (offset + 1 - char.utf8Size)).map fun line =>
          if char = '\n' then line + 1 else line
      else
        none

end Offside
