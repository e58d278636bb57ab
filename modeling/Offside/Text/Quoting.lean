import Offside.Text.Basic

/-!
# String and character literals

Where a text stands with respect to literals. A literal runs from a single or double quote
to the next quote of the same kind; inside it a backslash takes away the meaning of the
character behind it. Every scanner that must leave literals alone reads its text through
`annotate`.
-/

namespace Offside

/-- The characters that open a literal. -/
def quoteMarks : List Char :=
  "\"'".toList

/-- Position of a character relative to literals. -/
inductive Quoting where
  | outside
  | inside (mark : Char)
  | escaped (mark : Char)
  deriving Repr, DecidableEq

namespace Quoting

/-- The position behind a character, given the position in front of it. -/
def next : Quoting → Char → Quoting
  | outside, char => if char ∈ quoteMarks then inside char else outside
  | inside mark, char =>
      if char = '\\' then escaped mark
      else if char = mark then outside
      else inside mark
  | escaped mark, _ => inside mark

/-- The position behind a whole text. -/
def after (start : Quoting) (text : Text) : Quoting :=
  text.foldl next start

@[simp] theorem after_nil (start : Quoting) : start.after [] = start := rfl

@[simp] theorem after_cons (start : Quoting) (char : Char) (rest : Text) :
    start.after (char :: rest) = (start.next char).after rest := rfl

@[simp] theorem after_append (start : Quoting) (left right : Text) :
    start.after (left ++ right) = (start.after left).after right := by
  simp [after]

/-- Each character of a text with the position in front of it. -/
def annotate : Quoting → Text → List (Char × Quoting)
  | _, [] => []
  | here, char :: rest => (char, here) :: annotate (here.next char) rest

@[simp] theorem annotate_nil (start : Quoting) : start.annotate [] = [] := rfl

@[simp] theorem annotate_cons (start : Quoting) (char : Char) (rest : Text) :
    start.annotate (char :: rest) = (char, start) :: (start.next char).annotate rest := rfl

@[simp] theorem annotate_append (start : Quoting) (left right : Text) :
    start.annotate (left ++ right) =
      start.annotate left ++ (start.after left).annotate right := by
  induction left generalizing start with
  | nil => rfl
  | cons char rest ih => simp [ih]

@[simp] theorem map_fst_annotate (start : Quoting) (text : Text) :
    (start.annotate text).map Prod.fst = text := by
  induction text generalizing start with
  | nil => rfl
  | cons char rest ih => simp [ih]

end Quoting

end Offside
