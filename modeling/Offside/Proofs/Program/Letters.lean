import Offside.Proofs.Program.Syntax
import Offside.Proofs.Text.LetterPairs

/-!
# The characters of small programs

Which characters an expression holds, and which letters stand next to each other on a line. All
of these come from the keywords of the line, none from its names and numbers.
-/

namespace Offside

/-! ## Characters of expressions -/

/-- Whether a character can stand in an expression. -/
def isExpressionChar (char : Char) : Bool :=
  char.isAlphanum || [' ', '+', '-', '*', '<', '>', '=', '!', ','].contains char

/-- A text that holds characters of expressions only. -/
def IsExpression (text : Text) : Prop :=
  ∀ char ∈ text, isExpressionChar char = true

instance (text : Text) : Decidable (IsExpression text) :=
  inferInstanceAs (Decidable (∀ char ∈ text, isExpressionChar char = true))

theorem IsExpression.append {left right : Text} (leftExpression : IsExpression left)
    (rightExpression : IsExpression right) : IsExpression (left ++ right) := by
  intro char member
  rcases List.mem_append.1 member with inLeft | inRight
  · exact leftExpression char inLeft
  · exact rightExpression char inRight

theorem IsExpression.notMem {text : Text} (isExpression : IsExpression text) {char : Char}
    (outside : isExpressionChar char = false) : char ∉ text := by
  intro member
  rw [isExpression char member] at outside
  cases outside

theorem IsExpression.unquoted {text : Text} (isExpression : IsExpression text) :
    ∀ char ∈ text, char ∉ quoteMarks := by
  intro char member quoted
  have outside : ∀ mark ∈ quoteMarks, isExpressionChar mark = false := by decide
  exact isExpression.notMem (outside char quoted) member

/-- The characters of a text that cannot stand in an expression. -/
def punctuation (text : Text) : Text :=
  text.filter fun char => !isExpressionChar char

theorem punctuation_append (left right : Text) :
    punctuation (left ++ right) = punctuation left ++ punctuation right :=
  List.filter_append left right

theorem IsExpression.punctuation_eq {text : Text} (isExpression : IsExpression text) :
    punctuation text = [] := by
  rw [punctuation, List.filter_eq_nil_iff]
  intro char member
  rw [isExpression char member]
  decide

theorem mem_punctuation {char : Char} (outside : isExpressionChar char = false) {text : Text} :
    char ∈ punctuation text ↔ char ∈ text := by
  simp [punctuation, outside]

theorem Name.isAlpha_letter (name : Name) : name.letter.isAlpha = true :=
  isAlpha_iff.2 (.inr name.lower)

theorem Name.isAlphanum_of_mem (name : Name) {char : Char} (member : char ∈ name.text) :
    char.isAlphanum = true := by
  rcases List.mem_cons.1 member with rfl | inDigits
  · exact isAlphanum_of_isAlpha name.isAlpha_letter
  · exact isAlphanum_of_isDigit (name.inside char inDigits)

theorem Atom.isAlphanum_of_mem (atom : Atom) {char : Char} (member : char ∈ atom.text) :
    char.isAlphanum = true := by
  cases atom with
  | name value => exact value.isAlphanum_of_mem member
  | numeral value => exact isAlphanum_of_isDigit (value.inside char member)

theorem Atom.text_ne_nil (atom : Atom) : atom.text ≠ [] := by
  cases atom with
  | name value => exact List.cons_ne_nil _ _
  | numeral value => exact value.nonempty

theorem isToken_of_isAlphanum {text : Text} (nonempty : text ≠ [])
    (alphanum : ∀ char ∈ text, char.isAlphanum = true) : IsToken text where
  nonempty := nonempty
  starts char first := isBlank_eq_false_of_isAlphanum (alphanum char (List.mem_of_head? first))
  ends char last := isBlank_eq_false_of_isAlphanum (alphanum char (List.mem_of_getLast? last))

theorem Name.isToken (name : Name) : IsToken name.text :=
  isToken_of_isAlphanum (List.cons_ne_nil _ _) fun _ => name.isAlphanum_of_mem

theorem Name.isWord (name : Name) : IsWord name.text where
  nonempty := List.cons_ne_nil _ _
  inside _ member := isWordChar_of_isAlphanum (name.isAlphanum_of_mem member)

theorem Atom.isToken (atom : Atom) : IsToken atom.text :=
  isToken_of_isAlphanum atom.text_ne_nil fun _ => atom.isAlphanum_of_mem

/-- Atoms behind separators are a token with an atom in front of them. -/
theorem Atom.isToken_append_flatMap {α : Type} (first : Atom) (term : α → Text × Atom)
    (values : List α) :
    IsToken (first.text ++ values.flatMap fun value => (term value).1 ++ (term value).2.text) where
  nonempty empty := first.text_ne_nil (List.append_eq_nil_iff.1 empty).1
  starts := first.isToken.starts.append first.text_ne_nil
  ends := by
    rcases List.eq_nil_or_concat values with rfl | ⟨others, last, rfl⟩
    · rw [List.flatMap_nil, List.append_nil]
      exact first.isToken.ends
    · rw [List.concat_eq_append, List.flatMap_append, List.flatMap_singleton,
        ← List.append_assoc, ← List.append_assoc]
      exact (term last).2.isToken.ends.append (term last).2.text_ne_nil

theorem Arithmetic.isToken (arithmetic : Arithmetic) : IsToken arithmetic.text :=
  arithmetic.first.isToken_append_flatMap (fun term : Operator × Atom => (term.1.mark, term.2))
    arithmetic.rest

theorem Operands.isToken_joined (operands : Operands) (separator : Text) :
    IsToken (operands.joined separator) :=
  operands.first.isToken_append_flatMap (fun atom : Atom => (separator, atom)) operands.rest

theorem Name.isExpression (name : Name) : IsExpression name.text := by
  intro char member
  rw [isExpressionChar, name.isAlphanum_of_mem member, Bool.true_or]

theorem Atom.isExpression (atom : Atom) : IsExpression atom.text := by
  intro char member
  rw [isExpressionChar, atom.isAlphanum_of_mem member, Bool.true_or]

theorem Operator.isExpression_mark (operator : Operator) : IsExpression operator.mark := by
  cases operator <;> decide

theorem Arithmetic.isExpression (arithmetic : Arithmetic) : IsExpression arithmetic.text := by
  apply arithmetic.first.isExpression.append
  intro char member
  rcases List.mem_flatMap.1 member with ⟨⟨operator, atom⟩, _, inTerm⟩
  exact (operator.isExpression_mark.append atom.isExpression) char inTerm

theorem Arithmetic.comma_notMem (arithmetic : Arithmetic) : ',' ∉ arithmetic.text := by
  have atom : ∀ atom : Atom, ',' ∉ atom.text := by
    intro atom member
    cases atom.isAlphanum_of_mem member
  have mark : ∀ operator : Operator, ',' ∉ operator.mark := by
    intro operator
    cases operator <;> decide
  intro member
  rcases List.mem_append.1 member with inFirst | inRest
  · exact atom _ inFirst
  · rcases List.mem_flatMap.1 inRest with ⟨term, _, inTerm⟩
    rcases List.mem_append.1 inTerm with inMark | inAtom
    · exact mark _ inMark
    · exact atom _ inAtom

theorem Operands.isExpression_joined (operands : Operands) {separator : Text}
    (isExpression : IsExpression separator) : IsExpression (operands.joined separator) := by
  apply operands.first.isExpression.append
  intro char member
  rcases List.mem_flatMap.1 member with ⟨atom, _, inTerm⟩
  exact (isExpression.append atom.isExpression) char inTerm

theorem Relation.isExpression_marks (relation : Relation) : IsExpression relation.marks := by
  cases relation with
  | ordered comparison => cases comparison <;> decide
  | equal | different => decide

theorem Condition.isExpression (condition : Condition) : IsExpression condition.text := by
  have space : IsExpression [' '] := by decide
  apply condition.left.isExpression.append
  apply space.append
  apply condition.relation.isExpression_marks.append
  exact space.append condition.right.isExpression

/-! ## Letters of expressions -/

/-- A text without letters. -/
def IsLetterless (text : Text) : Prop :=
  ∀ char ∈ text, char.isAlpha = false

instance (text : Text) : Decidable (IsLetterless text) :=
  inferInstanceAs (Decidable (∀ char ∈ text, char.isAlpha = false))

theorem IsLetterless.letterPairs_append {left : Text} (letterless : IsLetterless left)
    (right : Text) : letterPairs (left ++ right) = letterPairs right := by
  induction left with
  | nil => rfl
  | cons char left ih =>
      rw [List.cons_append, letterPairs_cons_of_not_isAlpha (letterless char List.mem_cons_self)]
      exact ih fun other member => letterless other (List.mem_cons_of_mem char member)

theorem IsGap.isLetterless {gap : Text} (isGap : IsGap gap) : IsLetterless gap := by
  intro char member
  have blank := isGap char member
  rw [isTabOrSpace, Bool.or_eq_true, decide_eq_true_iff, decide_eq_true_iff] at blank
  rcases blank with rfl | rfl <;> rfl

theorem isAlpha_eq_false_of_isDigit {char : Char} (digit : char.isDigit = true) :
    char.isAlpha = false := by
  rw [isDigit_iff] at digit
  rw [← Bool.not_eq_true, isAlpha_iff, isUpper_iff, isLower_iff]
  omega

theorem startsOtherwise_append {left : Text} (letterless : IsLetterless left) {right : Text}
    (apart : startsOtherwise right = true) : startsOtherwise (left ++ right) = true := by
  cases left with
  | nil => exact apart
  | cons char left => simp [startsOtherwise, letterless char List.mem_cons_self]

section Right

variable {right : Text} (apart : startsOtherwise right = true)

include apart

theorem Name.letterPairs_append (name : Name) :
    letterPairs (name.text ++ right) = letterPairs right := by
  have letterless : IsLetterless name.digits :=
    fun char member => isAlpha_eq_false_of_isDigit (name.inside char member)
  rw [Name.text, List.cons_append,
    letterPairs_cons_of_startsOtherwise _ (startsOtherwise_append letterless apart)]
  exact letterless.letterPairs_append right

theorem Atom.letterPairs_append (atom : Atom) :
    letterPairs (atom.text ++ right) = letterPairs right := by
  cases atom with
  | name value => exact value.letterPairs_append apart
  | numeral value =>
      have letterless : IsLetterless value.digits :=
        fun char member => isAlpha_eq_false_of_isDigit (value.inside char member)
      exact letterless.letterPairs_append right

/-- Atoms behind separators without letters have no pairs. -/
theorem letterPairs_flatMap {α : Type} (term : α → Text × Atom)
    (separated : ∀ value, (term value).1 ≠ [] ∧ IsLetterless (term value).1) (values : List α) :
    letterPairs ((values.flatMap fun value => (term value).1 ++ (term value).2.text) ++ right) =
        letterPairs right ∧
      startsOtherwise
        ((values.flatMap fun value => (term value).1 ++ (term value).2.text) ++ right) = true := by
  induction values with
  | nil => exact ⟨rfl, apart⟩
  | cons value values ih =>
      rcases separated value with ⟨nonempty, letterless⟩
      rw [List.flatMap_cons, List.append_assoc, List.append_assoc]
      constructor
      · rw [letterless.letterPairs_append, Atom.letterPairs_append ih.2]
        exact ih.1
      · rcases List.exists_cons_of_ne_nil nonempty with ⟨char, rest, shape⟩
        have noLetter := letterless char (by rw [shape]; exact List.mem_cons_self)
        rw [shape]
        simp [startsOtherwise, noLetter]

omit apart in
theorem Operator.isLetterless_mark (operator : Operator) :
    operator.mark ≠ [] ∧ IsLetterless operator.mark := by
  cases operator <;> decide

theorem Arithmetic.letterPairs_append (arithmetic : Arithmetic) :
    letterPairs (arithmetic.text ++ right) = letterPairs right := by
  have terms := letterPairs_flatMap apart (fun term : Operator × Atom => (term.1.mark, term.2))
    (fun term => term.1.isLetterless_mark) arithmetic.rest
  rw [Arithmetic.text, List.append_assoc, Atom.letterPairs_append terms.2]
  exact terms.1

theorem Operands.letterPairs_append (operands : Operands) {separator : Text}
    (nonempty : separator ≠ []) (letterless : IsLetterless separator) :
    letterPairs (operands.joined separator ++ right) = letterPairs right := by
  have terms := letterPairs_flatMap apart (fun atom : Atom => (separator, atom))
    (fun _ => ⟨nonempty, letterless⟩) operands.rest
  rw [Operands.joined, List.append_assoc, Atom.letterPairs_append terms.2]
  exact terms.1

theorem Condition.letterPairs_append (condition : Condition) :
    letterPairs (condition.text ++ right) = letterPairs right := by
  have letterless : IsLetterless (' ' :: (condition.relation.marks ++ [' '])) := by
    cases condition.relation with
    | ordered comparison => cases comparison <;> decide
    | equal | different => decide
  have shape : condition.text ++ right = condition.left.text ++
      ((' ' :: (condition.relation.marks ++ [' '])) ++ (condition.right.text ++ right)) := by
    simp [Condition.text]
  have between : startsOtherwise ((' ' :: (condition.relation.marks ++ [' '])) ++
      (condition.right.text ++ right)) = true := rfl
  rw [shape, Atom.letterPairs_append between, letterless.letterPairs_append,
    Atom.letterPairs_append apart]

end Right

end Offside
