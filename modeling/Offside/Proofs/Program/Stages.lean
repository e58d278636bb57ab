import Offside.Proofs.Program.Letters

/-!
# Lines on their way through the passes

Each line of a listing is converted by one pass and left alone by all others. `Item.target` is
the line behind its pass, and `Item.turn` the place of the pass among those that look at it.
-/

namespace Offside

namespace Item

/-- What a line is converted to. -/
def target : Item → Text
  | .statement content => content.python
  | .loop counting => counting.python ++ braceTail true
  | .branch condition => "if ".toList ++ (condition.text ++ ":".toList)
  | .elseBranch condition => "elif ".toList ++ (condition.text ++ ":".toList)
  | .otherwise => "else:".toList
  | .close => "\x7d".toList
  | .classHeader | .mainHeader => " \x7b".toList
  | .blank => []

/-- The number of passes in front of the one that converts a line. -/
def turn : Item → Nat
  | .loop _ => 0
  | .elseBranch _ => 1
  | .branch _ => 2
  | .otherwise => 3
  | .statement (.output _ _) => 4
  | .statement _ | .close | .classHeader | .mainHeader | .blank => 5

/-- A line in front of a pass. -/
def textAt (stage : Nat) (item : Item) : Text :=
  if stage ≤ item.turn then item.source else item.target

theorem textAt_succ_of_ne {stage : Nat} {item : Item} (other : item.turn ≠ stage) :
    item.textAt (stage + 1) = item.textAt stage := by
  by_cases before : stage ≤ item.turn
  · rw [textAt, textAt, if_pos before, if_pos (by omega)]
  · rw [textAt, textAt, if_neg before, if_neg (by omega)]

theorem textAt_zero (item : Item) : item.textAt 0 = item.source :=
  if_pos (Nat.zero_le _)

theorem textAt_six (item : Item) : item.textAt 6 = item.target := by
  apply if_neg
  cases item with
  | statement content => cases content <;> simp [turn]
  | loop | branch | elseBranch | otherwise | close | classHeader | mainHeader | blank =>
      simp [turn]

/-! ## Letters -/

/-- The keywords and the punctuation of a line. -/
def sourceWords : Item → Text
  | .statement (.declare _) | .statement (.define _ _) => "int ;".toList
  | .statement (.assign _ _) => ";".toList
  | .statement (.output .newline _) => "System.out.println();".toList
  | .statement (.output .nothing _) => "System.out.print();".toList
  | .loop _ => "for (int ;;) \x7b".toList
  | .branch _ => "if () \x7b".toList
  | .elseBranch _ => "\x7d else if () \x7b".toList
  | .otherwise => "\x7d else \x7b".toList
  | .close => "\x7d".toList
  | .classHeader => "public class Main \x7b".toList
  | .mainHeader => "public static void main(String[] args) \x7b".toList
  | .blank => []

/-- The keywords and the punctuation of a converted line. -/
def targetWords : Item → Text
  | .statement (.declare _) => " = None".toList
  | .statement (.define _ _) | .statement (.assign _ _) => []
  | .statement (.output .newline _) => "print()".toList
  | .statement (.output .nothing _) => "print(, end='')".toList
  | .loop _ => "for  in range(): \x7b".toList
  | .branch _ => "if :".toList
  | .elseBranch _ => "elif :".toList
  | .otherwise => "else:".toList
  | .close => "\x7d".toList
  | .classHeader | .mainHeader => " \x7b".toList
  | .blank => []

end Item

theorem Statement.letterPairs_source (statement : Statement) :
    letterPairs statement.source = letterPairs (Item.sourceWords (.statement statement)) := by
  unfold Statement.source
  cases statement with
  | declare name =>
      rw [letterPairs_append (by rfl), name.letterPairs_append (by rfl)]
      rfl
  | define name value =>
      rw [letterPairs_append (by rfl), name.letterPairs_append (by rfl),
        letterPairs_append (by rfl), value.letterPairs_append (by rfl)]
      rfl
  | assign name value =>
      rw [name.letterPairs_append (by rfl), letterPairs_append (by rfl),
        value.letterPairs_append (by rfl)]
      rfl
  | output ending operands =>
      cases ending with
      | newline | nothing =>
          rw [letterPairs_append (by rfl),
            operands.letterPairs_append (by rfl) (by decide) (by decide)]
          rfl

theorem Statement.letterPairs_python (statement : Statement) :
    letterPairs statement.python = letterPairs (Item.targetWords (.statement statement)) := by
  unfold Statement.python
  cases statement with
  | declare name =>
      rw [name.letterPairs_append (by rfl)]
      rfl
  | define name value | assign name value =>
      rw [name.letterPairs_append (by rfl), letterPairs_append (by rfl),
        ← List.append_nil value.text, value.letterPairs_append (by rfl)]
      rfl
  | output ending operands =>
      cases ending with
      | newline | nothing =>
          rw [letterPairs_append (by rfl),
            operands.letterPairs_append (by rfl) (by decide) (by decide)]
          rfl

theorem Counting.letterPairs_source (counting : Counting) :
    letterPairs (counting.source ++ braceTail true) =
      letterPairs (Item.sourceWords (.loop counting)) := by
  have marks : IsLetterless counting.comparison.marks := by
    cases counting.comparison <;> decide
  have update : letterPairs (counting.updateMark ++ (")".toList ++ braceTail true)) = [] ∧
      startsOtherwise (counting.updateMark ++ (")".toList ++ braceTail true)) = true := by
    unfold Counting.updateMark
    cases counting.comparison <;> exact ⟨rfl, rfl⟩
  unfold Counting.source
  simp only [List.append_assoc]
  rw [letterPairs_append (by rfl), counting.counter.letterPairs_append (by rfl),
    letterPairs_append (by rfl), counting.start.letterPairs_append (by rfl),
    letterPairs_append (by rfl), counting.counter.letterPairs_append (by rfl),
    letterPairs_append (by rfl), marks.letterPairs_append, letterPairs_append (by rfl),
    counting.bound.letterPairs_append (by rfl), letterPairs_append (by rfl),
    counting.counter.letterPairs_append update.2, update.1]
  rfl

theorem Counting.letterPairs_python (counting : Counting) :
    letterPairs (counting.python ++ braceTail true) =
      letterPairs (Item.targetWords (.loop counting)) := by
  have range : IsLetterless counting.rangeTail ∧
      startsOtherwise (counting.rangeTail ++ braceTail true) = true := by
    unfold Counting.rangeTail
    cases counting.comparison <;> exact ⟨by decide, rfl⟩
  unfold Counting.python
  simp only [List.append_assoc]
  rw [letterPairs_append (by rfl), counting.counter.letterPairs_append (by rfl),
    letterPairs_append (by rfl), counting.start.letterPairs_append (by rfl),
    letterPairs_append (by rfl), counting.bound.letterPairs_append range.2,
    range.1.letterPairs_append]
  rfl

namespace Item

/-- The pairs of letters on a line are those of its keywords. -/
theorem letterPairs_source (item : Item) :
    letterPairs item.source = letterPairs item.sourceWords := by
  unfold source
  cases item with
  | statement content => exact content.letterPairs_source
  | loop counting => exact counting.letterPairs_source
  | branch condition | elseBranch condition =>
      rw [letterPairs_append (by rfl), condition.letterPairs_append (by rfl)]
      rfl
  | otherwise | close | classHeader | mainHeader | blank => rfl

theorem letterPairs_target (item : Item) :
    letterPairs item.target = letterPairs item.targetWords := by
  unfold target
  cases item with
  | statement content => exact content.letterPairs_python
  | loop counting => exact counting.letterPairs_python
  | branch condition | elseBranch condition =>
      rw [letterPairs_append (by rfl), condition.letterPairs_append (by rfl)]
      rfl
  | otherwise | close | classHeader | mainHeader | blank => rfl

/-- The keywords and the punctuation of a line in front of a pass. -/
def wordsAt (stage : Nat) (item : Item) : Text :=
  if stage ≤ item.turn then item.sourceWords else item.targetWords

theorem letterPairs_textAt (stage : Nat) (item : Item) :
    letterPairs (item.textAt stage) = letterPairs (item.wordsAt stage) := by
  unfold textAt wordsAt
  split
  · exact item.letterPairs_source
  · exact item.letterPairs_target

theorem hasPair_textAt (first second : Char) (stage : Nat) (item : Item) :
    hasPair first second (item.textAt stage) = hasPair first second (item.wordsAt stage) := by
  rw [hasPair, hasPair, letterPairs_textAt]

end Item

/-! ## Punctuation -/

theorem Statement.punctuation_source (statement : Statement) :
    punctuation statement.source = punctuation (Item.sourceWords (.statement statement)) := by
  unfold Statement.source
  cases statement with
  | declare name =>
      rw [punctuation_append, punctuation_append, name.isExpression.punctuation_eq]
      rfl
  | define name value =>
      rw [punctuation_append, punctuation_append, punctuation_append, punctuation_append,
        name.isExpression.punctuation_eq, value.isExpression.punctuation_eq]
      rfl
  | assign name value =>
      rw [punctuation_append, punctuation_append, punctuation_append,
        name.isExpression.punctuation_eq, value.isExpression.punctuation_eq]
      rfl
  | output ending operands =>
      have joined : IsExpression (operands.joined " + ".toList) :=
        operands.isExpression_joined (by decide)
      cases ending with
      | newline | nothing =>
          rw [punctuation_append, punctuation_append, joined.punctuation_eq]
          rfl

theorem Statement.punctuation_python (statement : Statement) :
    punctuation statement.python = punctuation (Item.targetWords (.statement statement)) := by
  unfold Statement.python
  cases statement with
  | declare name =>
      rw [punctuation_append, name.isExpression.punctuation_eq]
      rfl
  | define name value | assign name value =>
      rw [punctuation_append, punctuation_append, name.isExpression.punctuation_eq,
        value.isExpression.punctuation_eq]
      rfl
  | output ending operands =>
      have joined : IsExpression (operands.joined ", ".toList) :=
        operands.isExpression_joined (by decide)
      cases ending with
      | newline | nothing =>
          rw [punctuation_append, punctuation_append, joined.punctuation_eq]
          rfl

theorem Counting.punctuation_source (counting : Counting) :
    punctuation counting.source = "(;;)".toList := by
  have marks : IsExpression counting.comparison.marks :=
    (Relation.ordered counting.comparison).isExpression_marks
  have update : IsExpression counting.updateMark := by
    unfold Counting.updateMark
    cases counting.comparison <;> decide
  unfold Counting.source
  simp only [punctuation_append, counting.counter.isExpression.punctuation_eq,
    counting.start.isExpression.punctuation_eq, counting.bound.isExpression.punctuation_eq,
    marks.punctuation_eq, update.punctuation_eq]
  rfl

theorem Counting.punctuation_python (counting : Counting) :
    punctuation counting.python = "():".toList := by
  have range : punctuation counting.rangeTail = "):".toList := by
    unfold Counting.rangeTail
    cases counting.comparison <;> rfl
  unfold Counting.python
  simp only [punctuation_append, counting.counter.isExpression.punctuation_eq,
    counting.start.isExpression.punctuation_eq, counting.bound.isExpression.punctuation_eq, range]
  rfl

namespace Item

/-- What is no part of an expression comes from the keywords and the punctuation of a line. -/
theorem punctuation_source (item : Item) :
    punctuation item.source = punctuation item.sourceWords := by
  unfold source
  cases item with
  | statement content => exact content.punctuation_source
  | loop counting =>
      rw [punctuation_append, counting.punctuation_source]
      rfl
  | branch condition | elseBranch condition =>
      rw [punctuation_append, punctuation_append, condition.isExpression.punctuation_eq]
      rfl
  | otherwise | close | classHeader | mainHeader | blank => rfl

theorem punctuation_target (item : Item) :
    punctuation item.target = punctuation item.targetWords := by
  unfold target
  cases item with
  | statement content => exact content.punctuation_python
  | loop counting =>
      rw [punctuation_append, counting.punctuation_python]
      rfl
  | branch condition | elseBranch condition =>
      rw [punctuation_append, punctuation_append, condition.isExpression.punctuation_eq]
      rfl
  | otherwise | close | classHeader | mainHeader | blank => rfl

theorem mem_source {char : Char} (outside : isExpressionChar char = false) (item : Item) :
    char ∈ item.source ↔ char ∈ item.sourceWords := by
  rw [← mem_punctuation outside, item.punctuation_source, mem_punctuation outside]

theorem mem_target {char : Char} (outside : isExpressionChar char = false) (item : Item) :
    char ∈ item.target ↔ char ∈ item.targetWords := by
  rw [← mem_punctuation outside, item.punctuation_target, mem_punctuation outside]

theorem mem_textAt {char : Char} (outside : isExpressionChar char = false) (stage : Nat)
    (item : Item) : char ∈ item.textAt stage ↔ char ∈ item.wordsAt stage := by
  unfold textAt wordsAt
  split
  · exact item.mem_source outside
  · exact item.mem_target outside

/-- Whether a text has two neighbouring letters, or a mark that cannot stand in an expression,
that a line does not have in front of a pass. -/
def lacks (stage : Nat) (item : Item) (text : Text) : Bool :=
  (letterPairs text).any (fun pair => !hasPair pair.1 pair.2.1 (item.wordsAt stage)) ||
    (punctuation text).any fun char => !(item.wordsAt stage).contains char

theorem not_isInfix_of_lacks {stage : Nat} {item : Item} {text : Text}
    (lacking : item.lacks stage text = true) : ¬text <:+: item.textAt stage := by
  rw [lacks, Bool.or_eq_true, List.any_eq_true, List.any_eq_true] at lacking
  rcases lacking with ⟨⟨first, second, third⟩, member, missing⟩ | ⟨char, member, missing⟩
  · have present : hasPair first second text = true := hasPair_iff.2 ⟨third, member⟩
    apply not_isInfix_of_hasPair first second present
    rw [hasPair_textAt]
    simpa using missing
  · rw [punctuation, List.mem_filter, Bool.not_eq_true'] at member
    apply not_isInfix_of_notMem member.1
    rw [mem_textAt member.2]
    simpa using missing

end Item

end Offside
