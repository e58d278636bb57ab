import Offside.Proofs.Text.Trimming
import Offside.Text.Recognizer

/-!
# Spans

A run of characters of one class is taken off a text as a whole when the text behind it
starts with no character of the class.
-/

namespace Offside

theorem guard_of_true {condition : Prop} [Decidable condition] (holds : condition) :
    (guard condition : Option Unit) = some () :=
  if_pos holds

theorem guard_of_false {condition : Prop} [Decidable condition] (fails : ¬condition) :
    (guard condition : Option Unit) = none :=
  if_neg fails

section Class

variable {member : Char → Bool} {run rest : Text}

theorem takeWhile_append_of_stop (inside : ∀ char ∈ run, member char = true)
    (stop : ∀ char, rest.head? = some char → member char = false) :
    (run ++ rest).takeWhile member = run := by
  rw [List.takeWhile_append_of_pos inside]
  cases rest with
  | nil => simp
  | cons char rest => simp [stop char rfl]

theorem dropWhile_append_of_stop (inside : ∀ char ∈ run, member char = true)
    (stop : ∀ char, rest.head? = some char → member char = false) :
    (run ++ rest).dropWhile member = rest := by
  rw [List.dropWhile_append_of_pos inside]
  cases rest with
  | nil => rfl
  | cons char rest => simp [stop char rfl]

theorem skipSome?_append_of_stop (nonempty : run ≠ [])
    (inside : ∀ char ∈ run, member char = true)
    (stop : ∀ char, rest.head? = some char → member char = false) :
    skipSome? member (run ++ rest) = some rest := by
  cases run with
  | nil => exact absurd rfl nonempty
  | cons char run =>
      have tail := dropWhile_append_of_stop
        (fun other inTail => inside other (List.mem_cons_of_mem char inTail)) stop
      simp [skipSome?, inside char List.mem_cons_self, tail]

theorem head?_dropWhile {member : Char → Bool} {text : Text} {char : Char}
    (first : (text.dropWhile member).head? = some char) : member char = false := by
  have stops := List.head?_dropWhile_not member text
  rw [first] at stops
  simpa using stops

end Class

/-! ## Words -/

/-- A word, in front of a text that does not go on with it. -/
structure IsWord (word : Text) : Prop where
  nonempty : word ≠ []
  inside : ∀ char ∈ word, isWordChar char = true

theorem closesWord_iff {rest : Text} :
    closesWord rest = true ↔ ∀ char, rest.head? = some char → isWordChar char = false := by
  cases rest with
  | nil => simp [closesWord, opensWord]
  | cons char rest => simp [closesWord, opensWord]

theorem closesWord_cons {char : Char} {rest : Text} (outside : isWordChar char = false) :
    closesWord (char :: rest) = true := by
  simp [closesWord, opensWord, outside]

theorem closesWord_dropWhile (text : Text) :
    closesWord (text.dropWhile isWordChar) = true :=
  closesWord_iff.2 fun _ first => head?_dropWhile first

namespace IsWord

variable {word rest : Text}

theorem takeWhile_append (isWord : IsWord word) (closes : closesWord rest = true) :
    (word ++ rest).takeWhile isWordChar = word :=
  takeWhile_append_of_stop isWord.inside (closesWord_iff.1 closes)

theorem dropWhile_append (isWord : IsWord word) (closes : closesWord rest = true) :
    (word ++ rest).dropWhile isWordChar = rest :=
  dropWhile_append_of_stop isWord.inside (closesWord_iff.1 closes)

theorem word?_append (isWord : IsWord word) (closes : closesWord rest = true) :
    word? (word ++ rest) = some (word, rest) := by
  rw [word?, isWord.takeWhile_append closes, isWord.dropWhile_append closes]
  cases word with
  | nil => exact absurd rfl isWord.nonempty
  | cons char word => rfl

end IsWord

end Offside
