import Offside.Proofs.Loop.Enumeration
import Offside.Proofs.Loop.Reading

/-!
# Counted loops and the ranges that stand for them

A header with literal bounds and a literal step becomes the header of a loop over a range. Read
as integer expressions, the arguments of the range list the values that the counter takes in
the body of the loop, in the same order.
-/

namespace Offside

/-! ## Headers -/

/-- The update of a counter by a literal step. -/
inductive CounterUpdate where
  | increment (inFront : Bool)
  | decrement (inFront : Bool)
  | add (amount : Literal)
  | subtract (amount : Literal)

namespace CounterUpdate

/-- How far an update moves the counter. -/
def step : CounterUpdate → Int
  | increment _ => 1
  | decrement _ => -1
  | add amount => amount.value
  | subtract amount => -amount.value

/-- The amount and its opposite fit a word. -/
def Fits : CounterUpdate → Prop
  | increment _ | decrement _ => True
  | add amount | subtract amount =>
      Decimal.fitsWord amount.value = true ∧ Decimal.fitsWord (-amount.value) = true

/-- The amount fits a word as it is written, and in the direction of the update. -/
def StepFits : CounterUpdate → Prop
  | increment _ | decrement _ => True
  | add amount => Decimal.fitsWord amount.value = true
  | subtract amount =>
      Decimal.fitsWord amount.value = true ∧ Decimal.fitsWord (-amount.value) = true

theorem Fits.stepFits {update : CounterUpdate} (fits : update.Fits) : update.StepFits := by
  cases update with
  | increment inFront | decrement inFront => trivial
  | add amount => exact fits.1
  | subtract amount => exact fits

/-- The tokens of an update. -/
def tokens (counter : Text) : CounterUpdate → List Text
  | increment inFront => if inFront then [['+', '+'], counter] else [counter, ['+', '+']]
  | decrement inFront => if inFront then [['-', '-'], counter] else [counter, ['-', '-']]
  | add amount => [counter, ['+', '='], amount.text]
  | subtract amount => [counter, ['-', '='], amount.text]

end CounterUpdate

/-- The header of a counted loop with literal bounds. -/
structure CountedHeader where
  type? : Option String
  counter : Identifier
  start : Literal
  comparison : Comparison
  bound : Literal
  update : CounterUpdate
  known : ∀ type ∈ type?, type ∈ counterTypes

namespace CountedHeader

/-- The tokens up to the counter, behind its type if it has one. -/
def declaration (header : CountedHeader) : List Text :=
  (header.type?.map String.toList).toList ++ [header.counter.text]

/-- The tokens of the condition. -/
def condition (header : CountedHeader) : List Text :=
  [header.counter.text, header.comparison.marks, header.bound.text]

/-- The tokens of the three clauses, up to the closing parenthesis. -/
def clauses (header : CountedHeader) : List Text :=
  header.start.text :: [';'] ::
    (header.condition ++ [';'] :: (header.update.tokens header.counter.text ++ [[')']]))

/-- The tokens of a header. -/
def tokens (header : CountedHeader) : List Text :=
  "for".toList :: ['('] :: (header.declaration ++ ['='] :: header.clauses)

end CountedHeader

/-! ## Loops over ranges -/

/-- Whether a character is no space. -/
def isNoSpace (char : Char) : Bool :=
  char ≠ ' '

/-- The value of an expression, given the value of its left operand and what stands behind it. -/
def evaluateRest? (left : Int) : Text → Option Int
  | [] => some left
  | ' ' :: '+' :: ' ' :: right => (Decimal.int? right).map (left + ·)
  | ' ' :: '-' :: ' ' :: right => (Decimal.int? right).map (left - ·)
  | _ => none

/-- The value of a literal, or of a sum or a difference of two literals. -/
def evaluate? (expression : Text) : Option Int := do
  let left ← Decimal.int? (expression.takeWhile isNoSpace)
  evaluateRest? left (expression.dropWhile isNoSpace)

/-- A loop over a range, with the arguments of the range as they are written. -/
structure RangeLoop where
  counter : Text
  start : Text
  stop : Text
  step? : Option Text

namespace RangeLoop

/-- The header of a loop over a range. -/
def header (loop : RangeLoop) : Text :=
  "for ".toList ++ loop.counter ++ " in range(".toList ++ loop.start ++ ", ".toList ++
    loop.stop ++ ((loop.step?.map (", ".toList ++ ·)).getD []) ++ "):".toList

/-- The values that the counter takes. A step that is not written is one, and a step of zero is
refused. -/
def values? (loop : RangeLoop) : Option (List Int) := do
  let start ← evaluate? loop.start
  let stop ← evaluate? loop.stop
  let step ← (loop.step?.map evaluate?).getD (some 1)
  if step = 0 then none else some (rangeValues start stop step)

end RangeLoop

theorem Literal.evaluate?_append (literal : Literal) {rest : Text}
    (stop : ∀ char, rest.head? = some char → isNoSpace char = false) :
    evaluate? (literal.text ++ rest) = evaluateRest? literal.value rest := by
  have inside : ∀ char ∈ literal.text, isNoSpace char = true := by
    intro char member
    apply decide_eq_true
    rintro rfl
    exact literal.notMem (by decide) (by decide) member
  rw [evaluate?, takeWhile_append_of_stop inside stop, dropWhile_append_of_stop inside stop,
    literal.int?_text]
  rfl

theorem Literal.evaluate?_text (literal : Literal) :
    evaluate? literal.text = some literal.value := by
  have value := @evaluate?_append literal [] fun _ first => nomatch first
  rwa [List.append_nil] at value

/-- The written end of a range has the value that ends the range. -/
theorem Literal.evaluate?_stop (literal : Literal) (comparison : Comparison) :
    evaluate? (comparison.stop literal.text) = some (comparison.stopValue literal.value) := by
  cases comparison with
  | below | above => exact literal.evaluate?_text
  | atMost | atLeast =>
      refine literal.evaluate?_append ?_
      intro char first
      cases first
      rfl

/-! ## Tokens of clauses -/

/-- Whether a character can stand in a token of a clause. -/
def isClauseChar (char : Char) : Bool :=
  !isBlank char && char != ';' && char != ')'

/-- A token of a clause. -/
structure IsClauseToken (token : Text) : Prop where
  nonempty : token ≠ []
  inside : ∀ char ∈ token, isClauseChar char = true

theorem IsClauseToken.isToken {token : Text} (isClauseToken : IsClauseToken token) :
    IsToken token := by
  have solid : ∀ char ∈ token, isBlank char = false := by
    intro char member
    have inClause := isClauseToken.inside char member
    simp only [isClauseChar, Bool.and_eq_true, Bool.not_eq_true'] at inClause
    exact inClause.1.1
  constructor
  · exact isClauseToken.nonempty
  · intro char first
    exact solid char (List.mem_of_head? first)
  · intro char last
    exact solid char (List.mem_of_getLast? last)

theorem isClauseChar_of_isIdentifierChar {char : Char} (inside : isIdentifierChar char = true) :
    isClauseChar char = true := by
  have noSemicolon : char ≠ ';' := by
    rintro rfl
    cases inside
  have noParen : char ≠ ')' := by
    rintro rfl
    cases inside
  simp [isClauseChar, isBlank_eq_false_of_isIdentifierChar inside, noSemicolon, noParen]

theorem Identifier.isClauseToken (identifier : Identifier) : IsClauseToken identifier.text where
  nonempty := identifier.nonempty
  inside char member := isClauseChar_of_isIdentifierChar (identifier.inside char member)

theorem Literal.isClauseToken (literal : Literal) : IsClauseToken literal.text where
  nonempty := literal.text_ne_nil
  inside := by
    intro char member
    rcases literal.isDigit_of_mem_text member with rfl | digit
    · decide
    · apply isClauseChar_of_isIdentifierChar
      rw [isIdentifierChar, isAlphanum_of_isDigit digit, Bool.true_or]

theorem Comparison.isClauseToken (comparison : Comparison) :
    IsClauseToken comparison.marks where
  nonempty := comparison.marks_ne_nil
  inside := by cases comparison <;> decide

/-- A clause is written from its tokens, with or without a gap behind it. -/
theorem isClause_of_spaced (mark : Char) {tokens : List Text} {text trailing : Text}
    (spaced : Spaced tokens text) (areTokens : ∀ token ∈ tokens, IsClauseToken token)
    (isGap : IsGap trailing) (noClauseChar : isClauseChar mark = false)
    (noSpace : isTabOrSpace mark = false) : IsClause mark (text ++ trailing) := by
  have isToken := spaced.isToken fun token member => (areTokens token member).isToken
  have notMem : ∀ char, isClauseChar char = false → isTabOrSpace char = false →
      char ∉ text ++ trailing := by
    intro char outside noGap
    rw [List.mem_append]
    rintro (inText | inGap)
    · apply spaced.notMem noGap _ inText
      intro token member inToken
      rw [(areTokens token member).inside char inToken] at outside
      cases outside
    · rw [isGap char inGap] at noGap
      cases noGap
  constructor
  · intro empty
    exact isToken.nonempty (List.append_eq_nil_iff.1 empty).1
  · exact isToken.starts.append isToken.nonempty
  · exact notMem '\n' (by decide) (by decide)
  · exact notMem mark noClauseChar noSpace

/-! ## Reading a header -/

theorem Literal.isOperand (literal : Literal) : IsOperand literal.text where
  toIsToken := literal.isToken
  single := literal.notMem (by decide) (by decide)
  unmarked := by
    intro char first
    rcases literal.isDigit_of_mem_text (List.mem_of_head? first) with rfl | digit
    · decide
    · rw [isComparisonMark, decide_eq_false_iff_not]
      intro member
      have noDigit : ∀ mark ∈ "<>=!".toList, mark.isDigit = false := by decide
      rw [noDigit char member] at digit
      cases digit

theorem Identifier.head?_append_ne (identifier : Identifier) {mark : Char}
    (noStart : isIdentifierStart mark = false) (rest : Text) :
    (identifier.text ++ rest).head? ≠ some mark := by
  intro first
  obtain ⟨char, others, shape⟩ := List.exists_cons_of_ne_nil identifier.nonempty
  have starts := identifier.starts char (by rw [shape]; rfl)
  rw [shape] at first
  cases first
  rw [starts] at noStart
  cases noStart

theorem Identifier.getLast?_append_ne (identifier : Identifier) {mark : Char}
    (outside : isIdentifierChar mark = false) (front : Text) :
    (front ++ identifier.text).getLast? ≠ some mark :=
  fun last => identifier.notMem outside (mem_of_getLast?_append identifier.nonempty last)

theorem stepOf_increment {update : Text} (plus : flankedBy ['+', '+'] update = true) :
    stepOf update = .ok 1 :=
  if_pos plus

theorem stepOf_decrement {update : Text} (noPlus : flankedBy ['+', '+'] update = false)
    (minus : flankedBy ['-', '-'] update = true) : stepOf update = .ok (-1) := by
  have noPlusMark : flankedBy "++".toList update = false := noPlus
  have minusMark : flankedBy "--".toList update = true := minus
  rw [stepOf, noPlusMark, minusMark]
  rfl

namespace CounterUpdate

variable (update : CounterUpdate) (counter : Identifier)

/-- A compound update, written with any spaces, is read as its step. -/
theorem stepOf_compound (direction : Direction) {amount : Literal} {text : Text}
    (spaced : Spaced [counter.text, [direction.sign, '='], amount.text] text)
    (fits : Decimal.fitsWord amount.value = true)
    (stepFits : Decimal.fitsWord (direction.signed amount.value) = true)
    (nonzero : amount.value ≠ 0) : stepOf text = .ok (direction.signed amount.value) := by
  rcases spaced.exists_eq_append with ⟨toSign, rest, signGap, _, tail, rfl⟩
  rcases tail.exists_eq_append with ⟨toAmount, last, amountGap, _, single, rfl⟩
  rw [single.eq_of_single]
  have moves : Moves
      (counter.text ++ (toSign ++ (direction.sign :: '=' :: (toAmount ++ amount.text))))
      counter.text (direction.signed amount.value) :=
    .compound counter.isWord signGap.allBlank amountGap.allBlank amount.int?_text nonzero fits
      stepFits
  exact moves.stepOf_eq

/-- An update is read as its step. -/
theorem stepOf_of_spaced {text : Text} (spaced : Spaced (update.tokens counter.text) text)
    (fits : update.StepFits) (moves : update.step ≠ 0) : stepOf text = .ok update.step := by
  cases update with
  | increment inFront =>
      apply stepOf_increment
      cases inFront with
      | true =>
          rcases spaced.exists_eq_append with ⟨gap, rest, _, _, _, rfl⟩
          exact flankedBy_append_left ['+', '+'] (gap ++ rest)
      | false =>
          rcases spaced.exists_eq_append with ⟨gap, rest, _, _, tail, rfl⟩
          rw [tail.eq_of_single, ← List.append_assoc]
          exact flankedBy_append_right (counter.text ++ gap) ['+', '+']
  | decrement inFront =>
      cases inFront with
      | true =>
          rcases spaced.exists_eq_append with ⟨gap, rest, _, _, tail, rfl⟩
          rw [tail.eq_of_single]
          apply stepOf_decrement
          · rw [← List.append_assoc]
            exact flankedBy_eq_false nofun (counter.getLast?_append_ne (by decide) _)
          · exact flankedBy_append_left ['-', '-'] (gap ++ counter.text)
      | false =>
          rcases spaced.exists_eq_append with ⟨gap, rest, _, _, tail, rfl⟩
          rw [tail.eq_of_single, ← List.append_assoc]
          apply stepOf_decrement
          · apply flankedBy_eq_false
            · rw [List.append_assoc]
              exact counter.head?_append_ne (by decide) _
            · rw [List.getLast?_append]
              nofun
          · exact flankedBy_append_right (counter.text ++ gap) ['-', '-']
  | add amount => exact stepOf_compound counter .up spaced fits fits moves
  | subtract amount =>
      have nonzero : amount.value ≠ 0 := fun zero => moves (by rw [step, zero]; rfl)
      exact stepOf_compound counter .down spaced fits.1 fits.2 nonzero

theorem isClauseToken_of_mem_tokens {token : Text}
    (member : token ∈ update.tokens counter.text) : IsClauseToken token := by
  cases update with
  | increment inFront =>
      have either : token = ['+', '+'] ∨ token = counter.text := by
        cases inFront <;> simpa [tokens, or_comm] using member
      rcases either with rfl | rfl
      · exact ⟨List.cons_ne_nil _ _, by decide⟩
      · exact counter.isClauseToken
  | decrement inFront =>
      have either : token = ['-', '-'] ∨ token = counter.text := by
        cases inFront <;> simpa [tokens, or_comm] using member
      rcases either with rfl | rfl
      · exact ⟨List.cons_ne_nil _ _, by decide⟩
      · exact counter.isClauseToken
  | add amount | subtract amount =>
      simp only [tokens, List.mem_cons, List.not_mem_nil, or_false] at member
      rcases member with rfl | rfl | rfl
      · exact counter.isClauseToken
      · exact ⟨List.cons_ne_nil _ _, by decide⟩
      · exact amount.isClauseToken

theorem tokens_ne_nil : update.tokens counter.text ≠ [] := by
  cases update with
  | increment inFront | decrement inFront => cases inFront <;> exact List.cons_ne_nil _ _
  | add amount | subtract amount => exact List.cons_ne_nil _ _

end CounterUpdate

namespace CountedHeader

variable (header : CountedHeader)

theorem isWord_of_mem_counterTypes : ∀ type ∈ counterTypes, IsWord type.toList := by
  have words : ∀ type ∈ counterTypes,
      type.toList ≠ [] ∧ ∀ char ∈ type.toList, isWordChar char = true := by decide
  intro type member
  exact ⟨(words type member).1, (words type member).2⟩

/-- A type and the counter behind it would run together. -/
theorem runTogether_counter {type : String} (member : type ∈ counterTypes)
    (counter : Identifier) : runTogether type.toList counter.text = true := by
  have ends : ∀ type ∈ counterTypes, type.toList.getLast?.any isWordChar = true := by decide
  obtain ⟨char, rest, shape⟩ := List.exists_cons_of_ne_nil counter.nonempty
  have starts : isWordChar char = true := counter.isWord.inside char (by simp [shape])
  rw [runTogether, ends type member, shape]
  exact starts

theorem counter?_of_spaced {declared behind : Text}
    (spaced : Spaced header.declaration declared) (closes : closesWord behind = true)
    (noWord : word? (skipBlanks behind) = none) :
    counter? (declared ++ behind) = some (header.counter.text, behind) := by
  cases typed : header.type? with
  | none =>
      rw [declaration, typed] at spaced
      rw [spaced.eq_of_single]
      exact counter?_append header.counter.isWord closes noWord
  | some type =>
      have member := header.known type typed
      rw [declaration, typed] at spaced
      rcases spaced.exists_eq_append with ⟨gap, rest, isGap, apart, tail, rfl⟩
      rw [tail.eq_of_single, List.append_assoc, List.append_assoc]
      exact counter?_append_typed member (isWord_of_mem_counterTypes type member)
        (apart (runTogether_counter member header.counter)) isGap header.counter.isWord
        header.counter.isToken.starts closes

theorem isToken_of_mem_declaration {token : Text} (member : token ∈ header.declaration) :
    IsToken token := by
  have types : ∀ type ∈ counterTypes, type.toList ≠ [] ∧
      ∀ char ∈ type.toList, isBlank char = false := by decide
  rcases List.mem_append.1 member with inType | inCounter
  · simp only [Option.mem_toList, Option.map_eq_some_iff] at inType
    rcases inType with ⟨type, typed, rfl⟩
    have solid := types type (header.known type typed)
    exact ⟨solid.1, fun char first => solid.2 char (List.mem_of_head? first),
      fun char last => solid.2 char (List.mem_of_getLast? last)⟩
  · rw [List.mem_singleton.1 inCounter]
    exact header.counter.isToken

theorem isClauseToken_of_mem_condition {token : Text} (member : token ∈ header.condition) :
    IsClauseToken token := by
  simp only [condition, List.mem_cons, List.not_mem_nil, or_false] at member
  rcases member with rfl | rfl | rfl
  · exact header.counter.isClauseToken
  · exact header.comparison.isClauseToken
  · exact header.bound.isClauseToken

theorem comparison?_of_spaced {text trailing : Text} (spaced : Spaced header.condition text)
    (trailingGap : IsGap trailing) :
    comparison? (text ++ trailing) = some (header.comparison.marks, header.bound.text) := by
  rcases spaced.exists_eq_append with ⟨toMarks, rest, marksGap, _, tail, rfl⟩
  rcases tail.exists_eq_append with ⟨toBound, last, boundGap, _, single, rfl⟩
  rw [single.eq_of_single]
  simp only [List.append_assoc]
  exact comparison?_append header.counter.isWord marksGap boundGap header.bound.isOperand trailingGap
    header.comparison

/-- The clauses of a header are found, and they are written from its tokens. -/
theorem startClause?_of_spaced {gap text : Text} (isGap : IsGap gap)
    (spaced : Spaced header.clauses text) :
    ∃ start condition update, startClause? (gap ++ text) = some (start, condition, update, []) ∧
      trim start = header.start.text ∧
      comparison? condition = some (header.comparison.marks, header.bound.text) ∧
      Spaced (header.update.tokens header.counter.text) update := by
  rcases spaced.exists_cons (by simp) with
    ⟨behindStart, atMark, startGap, atMarkSpaced, rfl⟩
  rcases atMarkSpaced.exists_cons (by simp) with
    ⟨toCondition, atCondition, toConditionGap, atConditionSpaced, rfl⟩
  rcases atConditionSpaced.exists_append (by simp [condition]) (by simp) with
    ⟨condition, behindCondition, atSecondMark, conditionSpaced, conditionGap,
      atSecondMarkSpaced, rfl⟩
  rcases atSecondMarkSpaced.exists_cons (by simp) with
    ⟨toUpdate, atUpdate, toUpdateGap, atUpdateSpaced, rfl⟩
  rcases atUpdateSpaced.exists_append (header.update.tokens_ne_nil header.counter) (by simp) with
    ⟨update, behindUpdate, close, updateSpaced, updateGap, closeSpaced, rfl⟩
  rw [closeSpaced.eq_of_single]
  have isUpdate := isClause_of_spaced ')' updateSpaced
    (fun _ => header.update.isClauseToken_of_mem_tokens header.counter) isGap_nil (by decide)
    (by decide)
  rw [List.append_nil] at isUpdate
  have updateEnds := (updateSpaced.isToken fun _ member =>
    (header.update.isClauseToken_of_mem_tokens header.counter member).isToken).ends
  have isCondition := isClause_of_spaced ';' conditionSpaced
    (fun _ => header.isClauseToken_of_mem_condition) conditionGap (by decide) (by decide)
  have isStart := isClause_of_spaced ';' (.single header.start.text)
    (fun token member => List.mem_singleton.1 member ▸ header.start.isClauseToken) startGap
    (by decide) (by decide)
  have found := startClause?_append isGap.allBlank isStart
    (conditionClause?_append toConditionGap.allBlank isCondition
      (updateClause?_append toUpdateGap.allBlank isUpdate updateEnds updateGap.allBlank []))
  refine ⟨header.start.text ++ behindStart, condition ++ behindCondition, update, ?_, ?_,
    header.comparison?_of_spaced conditionSpaced conditionGap, updateSpaced⟩
  · simpa only [List.append_assoc, List.cons_append, List.nil_append] using found
  · exact trim_surrounded allBlank_nil startGap.allBlank header.start.isToken.starts
      header.start.isToken.ends

/-- A header is recognised as a whole. -/
theorem countedLoop_at?_of_spaced {text : Text} (spaced : Spaced header.tokens text) :
    ∃ clauses, countedLoop.at? none text = some (clauses, []) ∧
      clauses.counter = header.counter.text ∧ trim clauses.start = header.start.text ∧
      comparison? clauses.condition = some (header.comparison.marks, header.bound.text) ∧
      Spaced (header.update.tokens header.counter.text) clauses.update := by
  rcases spaced.exists_cons (by simp) with ⟨toParen, atParen, parenGap, atParenSpaced, rfl⟩
  rcases atParenSpaced.exists_cons (by simp) with
    ⟨toCounter, atCounter, counterGap, atCounterSpaced, rfl⟩
  rcases atCounterSpaced.exists_append (by simp [declaration]) (by simp) with
    ⟨declared, toEquals, atEquals, declaredSpaced, equalsGap, atEqualsSpaced, rfl⟩
  rcases atEqualsSpaced.exists_cons (by simp [clauses]) with
    ⟨toStart, atStart, startGap, atStartSpaced, rfl⟩
  rcases header.startClause?_of_spaced startGap atStartSpaced with
    ⟨start, condition, update, clausesFound, startEq, conditionEq, updateSpaced⟩
  have isDeclared := declaredSpaced.isToken fun _ => header.isToken_of_mem_declaration
  have closes : closesWord ('=' :: (toStart ++ atStart)) = true := closesWord_cons (by decide)
  have noWord : word? (skipBlanks (toEquals ++ '=' :: (toStart ++ atStart))) = none := by
    rw [skipBlanks_append equalsGap.allBlank, skipBlanks_cons_of_solid (by decide)]
    rfl
  have counterFound := header.counter?_of_spaced declaredSpaced
    (equalsGap.closesWord_append closes) noWord
  have opens : opensWord none = true := rfl
  have found := countedLoop_at?_append opens parenGap.allBlank counterGap.allBlank
    equalsGap.allBlank isDeclared.nonempty isDeclared.starts counterFound clausesFound
  exact ⟨_, found, rfl, startEq, conditionEq, updateSpaced⟩

/-- The loop over a range that stands for a header. -/
def rangeLoop : RangeLoop where
  counter := header.counter.text
  start := header.start.text
  stop := header.comparison.stop header.bound.text
  step? := if header.update.step = 1 then none else some (Decimal.ofInt header.update.step)

theorem header_rangeLoop :
    header.rangeLoop.header = RangeHeader.render
      { counter := header.counter.text
        start := header.start.text
        stop := header.comparison.stop header.bound.text
        step := header.update.step } := by
  unfold RangeLoop.header RangeHeader.render rangeLoop
  split <;> rfl

/-- The arguments of the range evaluate to the values of the header. -/
theorem values?_rangeLoop (moves : header.update.step ≠ 0) :
    header.rangeLoop.values? =
      some (rangeValues header.start.value
        (header.comparison.stopValue header.bound.value) header.update.step) := by
  have step : (header.rangeLoop.step?.map evaluate?).getD (some 1) =
      some header.update.step := by
    by_cases one : header.update.step = 1
    · simp [rangeLoop, one]
    · have value := (Literal.ofInt header.update.step).evaluate?_text
      rw [Literal.text_ofInt, Literal.value_ofInt] at value
      simp [rangeLoop, one, value]
  have start : evaluate? header.rangeLoop.start = some header.start.value :=
    header.start.evaluate?_text
  have stop : evaluate? header.rangeLoop.stop =
      some (header.comparison.stopValue header.bound.value) :=
    header.bound.evaluate?_stop header.comparison
  simp only [RangeLoop.values?, start, stop, step, Option.bind_eq_bind, Option.bind_some]
  exact if_neg moves

/-- The header with its step turned in the direction of the comparison, where the comparison
demands one. -/
def directed : CountedHeader :=
  { header with update := .add (Literal.ofInt (header.comparison.direct header.update.step)) }

theorem step_directed :
    header.directed.update.step = header.comparison.direct header.update.step :=
  Literal.value_ofInt _

/-- The clauses of a header are judged to be the loop over its directed range. -/
theorem exists_verdict_directed {text : Text} (spaced : Spaced header.tokens text)
    (fits : header.update.StepFits) (moves : header.update.step ≠ 0) :
    ∃ clauses, countedLoop.at? none text = some (clauses, []) ∧
      clauses.verdict = .replace header.directed.rangeLoop.header := by
  rcases header.countedLoop_at?_of_spaced spaced with
    ⟨clauses, found, counterEq, startEq, conditionEq, updateSpaced⟩
  have isUpdate := updateSpaced.isToken fun _ member =>
    (header.update.isClauseToken_of_mem_tokens header.counter member).isToken
  have step := header.update.stepOf_of_spaced header.counter updateSpaced fits moves
  refine ⟨clauses, found, ?_⟩
  rw [LoopClauses.verdict, LoopClauses.range, conditionEq]
  simp only [trim_eq_self isUpdate.starts isUpdate.ends, step,
    header.comparison.ofMarks?_marks, counterEq, startEq]
  rw [header.directed.header_rangeLoop, header.step_directed]
  rfl

/-- A header becomes the loop over its directed range, without a remark. -/
theorem convertLoops_directed {text : Text} (spaced : Spaced header.tokens text)
    (fits : header.update.StepFits) (moves : header.update.step ≠ 0) :
    (convertLoops text).text = header.directed.rangeLoop.header ∧
      (convertLoops text).remarks = [] := by
  obtain ⟨clauses, found, judged⟩ := header.exists_verdict_directed spaced fits moves
  have proper := countedLoop_opensWith.proper (by decide)
  have nonempty : text ≠ [] := by
    rintro rfl
    rw [proper.at?_nil] at found
    cases found
  rw [← List.append_nil text] at found
  exact (Recognizer.Settles.cons_hit nonempty found judged).edit proper Pass.loops.name

/-- A header whose step leads towards the bound becomes the loop over its range. -/
theorem convertLoops_of_spaced {text : Text} (spaced : Spaced header.tokens text)
    (fits : header.update.Fits) (agrees : header.comparison.Agrees header.update.step) :
    (convertLoops text).text = header.rangeLoop.header ∧ (convertLoops text).remarks = [] := by
  have same : header.directed.rangeLoop.header = header.rangeLoop.header := by
    rw [header.directed.header_rangeLoop, header.step_directed, agrees.direct_eq,
      header.header_rangeLoop]
    rfl
  rw [← same]
  exact header.convertLoops_directed spaced fits.stepFits agrees.ne_zero

/-- A counted loop becomes a loop over a range, without a remark. The range lists the values
that the counter takes in the body, from the start on and as long as the condition holds. -/
theorem convertLoops_visits {text : Text} (spaced : Spaced header.tokens text)
    (fits : header.update.Fits) (agrees : header.comparison.Agrees header.update.step) :
    ∃ loop : RangeLoop, loop.counter = header.counter.text ∧
      (convertLoops text).text = loop.header ∧ (convertLoops text).remarks = [] ∧
      ∃ values, loop.values? = some values ∧
        ∀ visited, Visits (header.comparison.Holds · header.bound.value) header.update.step
          header.start.value visited ↔ visited = values := by
  rcases header.convertLoops_of_spaced spaced fits agrees with ⟨converted, silent⟩
  have listed := agrees.visits header.start.value header.bound.value
  refine ⟨header.rangeLoop, rfl, converted, silent, _, header.values?_rangeLoop agrees.ne_zero, ?_⟩
  intro visited
  constructor
  · intro visits
    exact visits.unique listed
  · rintro rfl
    exact listed

/-- A loop that counts down by twos. -/
def sample : CountedHeader where
  type? := some "long"
  counter := ⟨"k1".toList, by decide, fun _ first => by cases first; rfl, by decide⟩
  start := ⟨false, "7".toList, by decide, by decide⟩
  comparison := .atLeast
  bound := ⟨true, "3".toList, by decide, by decide⟩
  update := .subtract ⟨false, "2".toList, by decide, by decide⟩
  known := by decide

theorem convertLoops_visits_sample :
    Spaced sample.tokens "for(long\tk1= 7 ;k1 >=-3; k1 -=2\t)".toList ∧ sample.update.Fits ∧
      sample.comparison.Agrees sample.update.step ∧
      ∃ loop : RangeLoop, loop.counter = sample.counter.text ∧
        (convertLoops "for(long\tk1= 7 ;k1 >=-3; k1 -=2\t)".toList).text = loop.header ∧
        (convertLoops "for(long\tk1= 7 ;k1 >=-3; k1 -=2\t)".toList).remarks = [] ∧
        ∃ values, loop.values? = some values ∧
          ∀ visited, Visits (sample.comparison.Holds · sample.bound.value) sample.update.step
            sample.start.value visited ↔ visited = values := by
  have spaced : Spaced sample.tokens "for(long\tk1= 7 ;k1 >=-3; k1 -=2\t)".toList :=
    .cons _ [] (by decide) (by decide) <| .cons _ [] (by decide) (by decide) <|
    .cons _ ['\t'] (by decide) (by decide) <| .cons _ [] (by decide) (by decide) <|
    .cons _ [' '] (by decide) (by decide) <| .cons _ [' '] (by decide) (by decide) <|
    .cons _ [] (by decide) (by decide) <| .cons _ [' '] (by decide) (by decide) <|
    .cons _ [] (by decide) (by decide) <| .cons _ [] (by decide) (by decide) <|
    .cons _ [' '] (by decide) (by decide) <| .cons _ [' '] (by decide) (by decide) <|
    .cons _ [] (by decide) (by decide) <| .cons _ ['\t'] (by decide) (by decide) <|
    .single _
  have fits : sample.update.Fits := ⟨by decide, by decide⟩
  have agrees : sample.comparison.Agrees sample.update.step := by decide
  exact ⟨spaced, fits, agrees, sample.convertLoops_visits spaced fits agrees⟩

end CountedHeader

end Offside
