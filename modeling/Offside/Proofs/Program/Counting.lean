import Offside.Proofs.Loop.Header
import Offside.Proofs.Program.Letters

/-!
# Counting loops

The header of a counting loop is recognised as a whole and becomes the header of its range.
-/

namespace Offside

/-- A name as an identifier. -/
def Name.identifier (name : Name) : Identifier where
  text := name.text
  nonempty := List.cons_ne_nil _ _
  starts := by
    intro char first
    cases first
    rw [isIdentifierStart, name.isAlpha_letter, Bool.true_or]
  inside := by
    intro char member
    rw [isIdentifierChar, name.isAlphanum_of_mem member, Bool.true_or]

theorem isClause_of_isExpression {mark : Char} {text : Text} (isToken : IsToken text)
    (isExpression : IsExpression text) (outside : isExpressionChar mark = false) :
    IsClause mark text where
  nonempty := isToken.nonempty
  starts := isToken.starts
  single := isExpression.notMem (by decide)
  free := isExpression.notMem outside

theorem Atom.isOperand (atom : Atom) : IsOperand atom.text where
  toIsToken := atom.isToken
  single := atom.isExpression.notMem (by decide)
  unmarked := by
    intro char first
    have alphanum := atom.isAlphanum_of_mem (List.mem_of_head? first)
    rw [isComparisonMark, decide_eq_false_iff_not]
    intro member
    have noAlphanum : ∀ mark ∈ "<>=!".toList, mark.isAlphanum = false := by decide
    rw [noAlphanum char member] at alphanum
    cases alphanum

namespace Counting

variable (counting : Counting)

/-- The update as it is read. -/
def update : CounterUpdate :=
  match counting.comparison with
  | .below | .atMost => .increment false
  | .above | .atLeast => .decrement false

theorem agrees : counting.comparison.Agrees counting.update.step := by
  rcases counting with ⟨counter, start, comparison, bound⟩
  cases comparison with
  | below | atMost => exact Int.one_pos
  | above | atLeast => exact Int.negSucc_lt_zero 0

/-- The clauses of the header. -/
def clauses : LoopClauses where
  counter := counting.counter.text
  start := counting.start.text
  condition := counting.counter.text ++ ([' '] ++ (counting.comparison.marks ++
    ([' '] ++ (counting.bound.text ++ []))))
  update := counting.counter.text ++ ([] ++ counting.updateMark)

theorem spaced_update :
    Spaced (counting.update.tokens counting.counter.identifier.text) counting.clauses.update := by
  rcases counting with ⟨counter, start, comparison, bound⟩
  have apart : ∀ mark, isWordChar mark = false →
      runTogether counter.text [mark, mark] = true → ([] : Text) ≠ [] := by
    intro mark outside together
    simp [runTogether, outside] at together
  cases comparison with
  | below | atMost => exact .cons _ [] isGap_nil (apart '+' (by decide)) (.single _)
  | above | atLeast => exact .cons _ [] isGap_nil (apart '-' (by decide)) (.single _)

theorem isToken_update : IsToken counting.clauses.update :=
  counting.spaced_update.isToken fun _ member =>
    (counting.update.isClauseToken_of_mem_tokens counting.counter.identifier member).isToken

theorem stepOf_update : stepOf counting.clauses.update = .ok counting.update.step := by
  apply counting.update.stepOf_of_spaced counting.counter.identifier counting.spaced_update
  · rcases counting with ⟨counter, start, comparison, bound⟩
    cases comparison <;> trivial
  · exact counting.agrees.ne_zero

theorem render_eq_python :
    RangeHeader.render
      { counter := counting.counter.text
        start := counting.start.text
        stop := counting.comparison.stop counting.bound.text
        step := counting.update.step } = counting.python := by
  rcases counting with ⟨counter, start, comparison, bound⟩
  unfold RangeHeader.render python
  cases comparison <;> simp only [List.append_assoc, Comparison.stop] <;> rfl

theorem verdict_clauses : counting.clauses.verdict = .replace counting.python := by
  have condition : comparison? counting.clauses.condition =
      some (counting.comparison.marks, counting.bound.text) :=
    comparison?_append counting.counter.isWord (by decide) (by decide) counting.bound.isOperand
      isGap_nil counting.comparison
  have update := trim_eq_self counting.isToken_update.starts counting.isToken_update.ends
  have start : trim counting.clauses.start = counting.start.text :=
    trim_eq_self counting.start.isToken.starts counting.start.isToken.ends
  rw [LoopClauses.verdict, LoopClauses.range, condition]
  simp only [update, counting.stepOf_update, counting.comparison.ofMarks?_marks, start,
    counting.agrees.direct_eq]
  rw [← counting.render_eq_python]
  rfl

theorem isExpression_condition : IsExpression counting.clauses.condition := by
  have space : IsExpression [' '] := by decide
  apply counting.counter.isExpression.append
  apply space.append
  apply (Relation.ordered counting.comparison).isExpression_marks.append
  apply space.append
  rw [List.append_nil]
  exact counting.bound.isExpression

theorem isToken_condition : IsToken counting.clauses.condition := by
  have name := counting.counter.isToken
  have bound := counting.bound.isToken
  constructor
  · intro empty
    exact name.nonempty (List.append_eq_nil_iff.1 empty).1
  · exact name.starts.append name.nonempty
  · have ends : EndsSolid ((counting.counter.text ++ ([' '] ++ (counting.comparison.marks ++
        [' ']))) ++ counting.bound.text) := bound.ends.append bound.nonempty
    simpa [clauses] using ends

theorem startClause?_source (rest : Text) :
    startClause? ([' '] ++ (counting.start.text ++ ';' :: ([' '] ++
      (counting.clauses.condition ++ ';' :: ([' '] ++ (counting.clauses.update ++
        ([] ++ ')' :: rest))))))) =
      some (counting.start.text, counting.clauses.condition, counting.clauses.update, rest) := by
  have space : AllBlank [' '] := by decide
  have isUpdate : IsExpression counting.clauses.update := by
    apply counting.counter.isExpression.append
    unfold updateMark
    cases counting.comparison <;> decide
  have updateFound := updateClause?_append space
    (isClause_of_isExpression counting.isToken_update isUpdate (by decide))
    counting.isToken_update.ends allBlank_nil rest
  have conditionFound := conditionClause?_append space
    (isClause_of_isExpression counting.isToken_condition counting.isExpression_condition
      (by decide)) updateFound
  exact startClause?_append space
    (isClause_of_isExpression counting.start.isToken counting.start.isExpression (by decide))
    conditionFound

theorem counter?_source (clauses : Text) :
    counter? (("int".toList ++ ([' '] ++ counting.counter.text)) ++ ([' '] ++ '=' :: clauses)) =
      some (counting.counter.text, [' '] ++ '=' :: clauses) := by
  have known : "int" ∈ counterTypes := by decide
  have isInt : IsWord "int".toList := ⟨by decide, by decide⟩
  have closes : closesWord ([' '] ++ '=' :: clauses) = true := rfl
  rw [List.append_assoc, List.append_assoc]
  exact counter?_append_typed known isInt (by decide) (by decide) counting.counter.isWord
    counting.counter.isToken.starts closes

/-- A header is recognised whatever stands behind it. -/
theorem countedLoop_at?_source {before : Option Char} (opens : opensWord before = true)
    (rest : Text) :
    countedLoop.at? before (counting.source ++ rest) = some (counting.clauses, rest) := by
  have space : AllBlank [' '] := by decide
  have nonempty : "int".toList ++ ([' '] ++ counting.counter.text) ≠ [] := List.cons_ne_nil _ _
  have starts : StartsSolid ("int".toList ++ ([' '] ++ counting.counter.text)) :=
    startsSolid_cons (by decide)
  have found := countedLoop_at?_append opens space allBlank_nil space nonempty starts
    (counting.counter?_source _) (counting.startClause?_source rest)
  have shape : counting.source ++ rest = "for".toList ++ ([' '] ++ '(' ::
      ([] ++ ("int".toList ++ ([' '] ++ counting.counter.text) ++ ([' '] ++ '=' ::
        ([' '] ++ (counting.start.text ++ ';' :: ([' '] ++ (counting.clauses.condition ++ ';' ::
          ([' '] ++ (counting.clauses.update ++ ([] ++ ')' :: rest))))))))))) := by
    unfold source
    simp only [clauses, List.append_assoc, List.nil_append, List.append_nil]
    rfl
  rw [shape]
  exact found

end Counting

end Offside
