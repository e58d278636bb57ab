import Offside.Proofs.Layout.Recovery
import Offside.Proofs.Program.Spelling
import Offside.Proofs.Text.Quoting

/-!
# Listings behind the layout pass

Every converted line is a phrase, with a brace behind it or not, or a brace alone. The layout
pass therefore sets a listing as the lines of the program at their depths. The braces of the
headers around the program are loose, so that they take no depth.
-/

namespace Offside

/-! ## Phrases -/

/-- A token without braces that closes its literals. -/
def Phrase.ofToken {text : Text} (isToken : IsToken text) (unbraced : ∀ char ∈ text,
    char ≠ '\x7b' ∧ char ≠ '\x7d') (closed : Quoting.outside.after text = .outside) : Phrase where
  text := text
  nonempty := isToken.nonempty
  trimmed := trim_eq_self isToken.starts isToken.ends
  bare := by
    rintro ⟨char, quoting⟩ member
    have inText : char ∈ text := by
      rw [← Quoting.map_fst_annotate .outside text]
      exact List.mem_map_of_mem member
    simp [isBareBrace, unbraced char inText]
  closed := closed

theorem continuesBranch_eq_false {text : Text} (absent : hasPair 'e' 'l' text = false) :
    continuesBranch text = false := by
  have noElif : ¬"elif ".toList <:+: text := not_isInfix_of_hasPair 'e' 'l' (by decide) absent
  have noElse : ¬"else:".toList <:+: text := not_isInfix_of_hasPair 'e' 'l' (by decide) absent
  rw [continuesBranch, Bool.or_eq_false_iff]
  constructor
  · rw [← Bool.not_eq_true, List.isPrefixOf_iff_prefix]
    exact fun starts => noElif starts.isInfix
  · rw [← Bool.not_eq_true, List.isPrefixOf_iff_prefix]
    exact fun starts => noElse starts.isInfix

section Target

variable {item : Item}

theorem Item.unbraced_target
    (words : '\x7b' ∉ item.targetWords ∧ '\x7d' ∉ item.targetWords) :
    ∀ char ∈ item.target, char ≠ '\x7b' ∧ char ≠ '\x7d' := by
  intro char member
  constructor
  · rintro rfl
    exact words.1 ((item.mem_target (by decide)).1 member)
  · rintro rfl
    exact words.2 ((item.mem_target (by decide)).1 member)

theorem Item.unquoted_target (words : ∀ mark ∈ quoteMarks, mark ∉ item.targetWords) :
    ∀ char ∈ item.target, char ∉ quoteMarks := by
  have outside : ∀ mark ∈ quoteMarks, isExpressionChar mark = false := by decide
  intro char member quoted
  exact words char quoted ((item.mem_target (outside char quoted)).1 member)

end Target

/-- What stands behind the arguments of a print call. -/
def Ending.callTail : Ending → Text
  | newline => ")".toList
  | nothing => ", end='')".toList

theorem Ending.callTail_ne_nil (ending : Ending) : ending.callTail ≠ [] := by
  cases ending <;> decide

theorem Ending.endsSolid_callTail (ending : Ending) : EndsSolid ending.callTail := by
  cases ending <;> exact endsSolid_of_getLast? rfl (by decide)

theorem Ending.after_callTail (ending : Ending) :
    Quoting.outside.after ending.callTail = .outside := by
  cases ending <;> decide

namespace Statement

theorem python_output (ending : Ending) (operands : Operands) :
    (output ending operands).python =
      "print(".toList ++ (operands.joined ", ".toList ++ ending.callTail) := by
  cases ending <;> rfl

variable (statement : Statement)

theorem isToken_python : IsToken statement.python where
  starts := statement.startsSolid_python
  nonempty := by
    rcases statement with _ | _ | _ | ⟨⟨⟩, _⟩ <;> exact List.cons_ne_nil _ _
  ends := by
    cases statement with
    | declare name =>
        have none : EndsSolid " = None".toList := endsSolid_of_getLast? rfl (by decide)
        exact none.append (by decide)
    | define name value | assign name value => exact (isToken_assigned name value).ends
    | output ending operands =>
        rw [python_output, ← List.append_assoc]
        exact ending.endsSolid_callTail.append ending.callTail_ne_nil

theorem unbraced_python : ∀ char ∈ statement.python, char ≠ '\x7b' ∧ char ≠ '\x7d' := by
  have words : '\x7b' ∉ Item.targetWords (.statement statement) ∧
      '\x7d' ∉ Item.targetWords (.statement statement) := by
    rcases statement with _ | _ | _ | ⟨⟨⟩, _⟩ <;> exact of_decide_eq_true rfl
  exact Item.unbraced_target words

theorem after_python : Quoting.outside.after statement.python = .outside := by
  cases statement with
  | declare name =>
      have none : IsExpression " = None".toList := by decide
      exact Quoting.after_of_unquoted (name.isExpression.append none).unquoted
  | define name value | assign name value =>
      exact Quoting.after_of_unquoted (isExpression_assigned name value).unquoted
  | output ending operands =>
      have call : Quoting.outside.after "print(".toList = .outside := by decide
      have joined : Quoting.outside.after (operands.joined ", ".toList) = .outside :=
        Quoting.after_of_unquoted (operands.isExpression_joined (by decide)).unquoted
      rw [python_output, Quoting.after_append, Quoting.after_append, call, joined]
      exact ending.after_callTail

/-- A statement opens no block. -/
def phrase : PlainPhrase where
  toPhrase := .ofToken statement.isToken_python statement.unbraced_python statement.after_python
  noColon := by
    intro last
    have member : ':' ∈ Item.target (.statement statement) := List.mem_of_getLast? last
    rw [Item.mem_target (by decide)] at member
    revert member
    rcases statement with _ | _ | _ | ⟨⟨⟩, _⟩ <;> exact of_decide_eq_true rfl
  noBranch := by
    apply continuesBranch_eq_false
    rw [Phrase.ofToken, hasPair, letterPairs_python]
    rcases statement with _ | _ | _ | ⟨⟨⟩, _⟩ <;> rfl

@[simp] theorem text_phrase : statement.phrase.text = statement.python := rfl

end Statement

namespace Counting

variable (counting : Counting)

theorem python_eq_append :
    counting.python = ("for ".toList ++ (counting.counter.text ++ (" in range(".toList ++
      (counting.start.text ++ (", ".toList ++ counting.bound.text))))) ++ counting.rangeTail := by
  simp only [python, List.append_assoc]

theorem getLast?_python : counting.python.getLast? = some ':' := by
  have tail : counting.rangeTail.getLast? = some ':' := by
    unfold rangeTail
    cases counting.comparison <;> rfl
  rw [python_eq_append, List.getLast?_append, tail]
  rfl

theorem isToken_python : IsToken counting.python where
  nonempty := List.cons_ne_nil _ _
  starts := startsSolid_of_head? rfl (by decide)
  ends := endsSolid_of_getLast? counting.getLast?_python (by decide)

theorem unbraced_python : ∀ char ∈ counting.python, char ≠ '\x7b' ∧ char ≠ '\x7d' := by
  intro char member
  constructor
  · rintro rfl
    rw [← mem_punctuation (by decide), counting.punctuation_python] at member
    exact absurd member (by decide)
  · rintro rfl
    rw [← mem_punctuation (by decide), counting.punctuation_python] at member
    exact absurd member (by decide)

theorem unquoted_python : ∀ char ∈ counting.python, char ∉ quoteMarks := by
  have outside : ∀ mark ∈ quoteMarks, isExpressionChar mark = false ∧
      mark ∉ "():".toList := by decide
  intro char member quoted
  rcases outside char quoted with ⟨noExpression, noMark⟩
  rw [← mem_punctuation noExpression, counting.punctuation_python] at member
  exact noMark member

/-- The header of a loop opens a block. -/
def phrase : HeaderPhrase where
  toPhrase := .ofToken counting.isToken_python counting.unbraced_python
    (Quoting.after_of_unquoted counting.unquoted_python)
  colon := counting.getLast?_python
  noBranch := by
    apply continuesBranch_eq_false
    cases present : hasPair 'e' 'l' counting.python with
    | false => exact present
    | true =>
        have within : counting.python <:+: counting.python ++ braceTail true :=
          (List.prefix_append _ _).isInfix
        have absent : hasPair 'e' 'l' (counting.python ++ braceTail true) = false := by
          rw [hasPair, counting.letterPairs_python]
          rfl
        rw [hasPair_of_isInfix within present] at absent
        cases absent

@[simp] theorem text_phrase : counting.phrase.text = counting.python := rfl

end Counting

theorem IsExpression.unbraced {text : Text} (isExpression : IsExpression text) :
    ∀ char ∈ text, char ≠ '\x7b' ∧ char ≠ '\x7d' := by
  intro char member
  constructor
  · rintro rfl
    exact isExpression.notMem (by decide) member
  · rintro rfl
    exact isExpression.notMem (by decide) member

namespace Condition

variable (condition : Condition)

theorem isToken : IsToken condition.text where
  nonempty empty := condition.left.text_ne_nil (List.append_eq_nil_iff.1 empty).1
  starts := condition.left.isToken.starts.append condition.left.text_ne_nil
  ends := by
    have shape : condition.text =
        (condition.left.text ++ ' ' :: (condition.relation.marks ++ [' '])) ++
          condition.right.text := by
      simp [text]
    rw [shape]
    exact condition.right.isToken.ends.append condition.right.text_ne_nil

def phrase : Phrase :=
  .ofToken condition.isToken condition.isExpression.unbraced
    (Quoting.after_of_unquoted condition.isExpression.unquoted)

theorem elifText_phrase : elifText condition.phrase = (Item.elseBranch condition).target :=
  List.append_assoc _ _ _

theorem getLast?_branch : (Item.branch condition).target.getLast? = some ':' := by
  have shape : (Item.branch condition).target =
      ("if ".toList ++ condition.text) ++ [':'] := (List.append_assoc _ _ _).symm
  rw [shape]
  exact List.getLast?_concat

theorem isToken_branch : IsToken (Item.branch condition).target where
  nonempty := List.cons_ne_nil _ _
  starts := startsSolid_of_head? rfl (by decide)
  ends := endsSolid_of_getLast? condition.getLast?_branch (by decide)

/-- The header of a branch opens a block. -/
def headerPhrase : HeaderPhrase where
  toPhrase := .ofToken condition.isToken_branch (Item.unbraced_target (of_decide_eq_true rfl))
    (Quoting.after_of_unquoted (Item.unquoted_target (of_decide_eq_true rfl)))
  colon := condition.getLast?_branch
  noBranch := by
    apply continuesBranch_eq_false
    rw [Phrase.ofToken, hasPair, Item.letterPairs_target]
    rfl

@[simp] theorem text_headerPhrase :
    condition.headerPhrase.text = (Item.branch condition).target := rfl

end Condition

/-! ## Programs -/

mutual

/-- The lines of a program are set at their depths. -/
theorem Program.sets (program : Program) (depth loose : Nat) :
    Layout.Sets { depth, loose } (program.items.map Item.target) (program.python depth)
      { depth, loose } := by
  cases program with
  | done => exact Layout.Sets.nil
  | simple statement rest => exact .plain statement.phrase (rest.sets depth loose)
  | loop counting body rest =>
      rw [Program.items, Program.python, List.map_cons, List.map_append, List.map_cons]
      -- The header opens the block of the body, and the closing line ends it.
      apply Layout.Sets.header counting.phrase true
      apply (body.sets (depth + 1) loose).append
      exact .closing (rest.sets depth loose)
  | branch condition body alternative rest =>
      rw [Program.items, Program.python, List.map_cons, List.map_append, List.map_append,
        ← List.append_nil (Item.target (.branch condition))]
      apply Layout.Sets.header condition.headerPhrase false
      apply (body.sets (depth + 1) loose).append
      exact (alternative.sets depth loose).append (rest.sets depth loose)

theorem Alternative.sets (alternative : Alternative) (depth loose : Nat) :
    Layout.Sets { depth := depth + 1, loose } (alternative.items.map Item.target)
      (alternative.python depth) { depth, loose } := by
  cases alternative with
  | close => exact .closing .nil
  | elseBranch condition body alternative =>
      have shaped := LineShape.ofLine_elif condition.phrase false
      rw [condition.elifText_phrase, braceTail, if_neg Bool.false_ne_true, List.append_nil]
        at shaped
      rw [Alternative.items, Alternative.python, List.map_cons, List.map_append]
      apply Layout.Sets.branch shaped
      exact (body.sets (depth + 1) loose).append (alternative.sets depth loose)
  | otherwise body =>
      rw [Alternative.items, Alternative.python, List.map_cons, List.map_append,
        ← List.append_nil (body.python (depth + 1))]
      apply Layout.Sets.branch (LineShape.ofLine_else false)
      exact (body.sets (depth + 1) loose).append (.closing .nil)

end

/-- The lines in front of a program: what is left of the headers around it. -/
def wrapperLines (wrapped : Bool) : List Text :=
  if wrapped then [[], []] else []

theorem eq_nil_of_mem_wrapperLines {wrapped : Bool} {line : Text}
    (member : line ∈ wrapperLines wrapped) : line = [] := by
  cases wrapped with
  | false => cases member
  | true => exact List.eq_of_mem_replicate (n := 2) member

theorem Program.sets_listing (program : Program) (wrapped : Bool) :
    Layout.Sets {} ((program.listing wrapped).map Item.target)
      (wrapperLines wrapped ++ program.python 0) {} := by
  cases wrapped with
  | false => exact program.sets 0 0
  | true =>
      -- Both headers have left a loose brace, which entitles a closing line at the end.
      have shaped : LineShape.ofLine (braceTail true) = .braces 1 := by decide
      have closes : Layout.Sets { depth := 0, loose := 2 } [closingLine, closingLine] [] {} :=
        .closing_loose (.closing_loose .nil)
      have body := (program.sets 0 2).append closes
      rw [List.append_nil] at body
      rw [Program.listing, if_pos rfl, List.append_assoc, List.map_append, List.map_append]
      apply Layout.Sets.cons shaped rfl rfl
      exact .cons shaped rfl rfl body

end Offside
