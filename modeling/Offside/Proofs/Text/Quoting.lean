import Offside.Proofs.Text.Spans
import Offside.Text.Quoting

/-!
# Positions behind words and blanks

Blanks and words do not change where a text stands with respect to literals, except that a word
takes the place of the character that a backslash has taken the meaning of.
-/

namespace Offside

namespace Quoting

/-- A literal is opened by a quote. -/
def IsSound : Quoting → Prop
  | outside => True
  | inside mark | escaped mark => mark ∈ quoteMarks

/-- The next character has its own meaning. -/
def IsSettled : Quoting → Prop
  | outside => True
  | inside mark => mark ∈ quoteMarks
  | escaped _ => False

theorem IsSettled.isSound {here : Quoting} (settled : here.IsSettled) : here.IsSound := by
  cases here with
  | outside => exact trivial
  | inside mark => exact settled
  | escaped mark => exact settled.elim

theorem IsSound.next {here : Quoting} (sound : here.IsSound) (char : Char) :
    (here.next char).IsSound := by
  cases here with
  | outside =>
      rw [Quoting.next]
      split
      · next quote => exact quote
      · trivial
  | inside mark =>
      rw [Quoting.next]
      split
      · exact sound
      · split
        · trivial
        · exact sound
  | escaped mark => exact sound

theorem isWordChar_of_mem_quoteMarks : ∀ mark ∈ quoteMarks, isWordChar mark = false := by decide

/-- Part of a word is no quote and no backslash. -/
theorem IsSettled.next_eq {here : Quoting} (settled : here.IsSettled) {char : Char}
    (inside : isWordChar char = true) : here.next char = here := by
  have noQuote : char ∉ quoteMarks := by
    intro quote
    simp [isWordChar_of_mem_quoteMarks char quote] at inside
  cases here with
  | outside => exact if_neg noQuote
  | inside mark =>
      have noBackslash : char ≠ '\\' := by
        rintro rfl
        revert inside
        decide
      have noMark : char ≠ mark := by
        rintro rfl
        exact noQuote settled
      rw [Quoting.next, if_neg noBackslash, if_neg noMark]
  | escaped mark => exact settled.elim

theorem IsSound.isSettled_next {here : Quoting} (sound : here.IsSound) {char : Char}
    (inside : isWordChar char = true) : (here.next char).IsSettled := by
  cases here with
  | outside =>
      have settled : outside.IsSettled := trivial
      rwa [settled.next_eq inside]
  | inside mark =>
      have settled : (Quoting.inside mark).IsSettled := sound
      rwa [settled.next_eq inside]
  | escaped mark => exact sound

theorem IsSettled.after_eq {here : Quoting} (settled : here.IsSettled) {text : Text}
    (inside : ∀ char ∈ text, isWordChar char = true) : here.after text = here := by
  induction text with
  | nil => rfl
  | cons char text ih =>
      rw [after_cons, settled.next_eq (inside char List.mem_cons_self)]
      exact ih fun other member => inside other (List.mem_cons_of_mem char member)

/-- Behind a word every character has its own meaning. -/
theorem IsSound.isSettled_after {here : Quoting} (sound : here.IsSound) {word : Text}
    (isWord : IsWord word) : (here.after word).IsSettled := by
  obtain ⟨nonempty, inside⟩ := isWord
  cases word with
  | nil => exact absurd rfl nonempty
  | cons char word =>
      have settled := sound.isSettled_next (inside char List.mem_cons_self)
      rw [after_cons,
        settled.after_eq fun other member => inside other (List.mem_cons_of_mem char member)]
      exact settled

theorem after_of_unquoted {text : Text} (unquoted : ∀ char ∈ text, char ∉ quoteMarks) :
    outside.after text = outside := by
  induction text with
  | nil => rfl
  | cons char text ih =>
      have stays : outside.next char = outside := if_neg (unquoted char List.mem_cons_self)
      rw [after_cons, stays]
      exact ih fun other member => unquoted other (List.mem_cons_of_mem char member)

theorem isBlank_of_mem_quoteMarks : ∀ mark ∈ quoteMarks, isBlank mark = false := by decide

theorem after_of_blank {blanks : Text} (blank : AllBlank blanks) :
    outside.after blanks = outside := by
  apply after_of_unquoted
  intro char member quote
  have solid := isBlank_of_mem_quoteMarks char quote
  rw [blank char member] at solid
  cases solid

end Quoting

end Offside
