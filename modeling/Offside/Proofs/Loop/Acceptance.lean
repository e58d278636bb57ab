import Offside.Proofs.Loop.Header

/-!
# Accepted loop headers

A header is accepted if its condition compares some word with a bound and its update moves something
by a step. Neither of the two has to be the counter of the loop. A header that is accepted therefore
says the same as its range only if the counter is both compared and moved. A header that is not
accepted is kept for a reason that holds of it.
-/

namespace Offside

/-! ## Loops over a counter -/

/-- A condition compares the counter with a bound. -/
def BoundsCounter (counter condition : Text) : Prop :=
  ∃ (comparison : Comparison) (gap blanks bound : Text),
    AllBlank gap ∧ AllBlank blanks ∧ IsBound bound ∧
      trim condition = counter ++ (gap ++ (comparison.marks ++ (blanks ++ bound)))

/-- An update moves the counter by one, or by a literal. -/
inductive UpdatesCounter (counter : Text) : (update : Text) → Prop where
  | inFront {gap : Text} (direction : Direction) (blank : AllBlank gap) :
      UpdatesCounter counter ([direction.sign, direction.sign] ++ (gap ++ counter))
  | behind {gap : Text} (direction : Direction) (blank : AllBlank gap) :
      UpdatesCounter counter (counter ++ (gap ++ [direction.sign, direction.sign]))
  | compound {gap blanks amount : Text} {value : Int} (direction : Direction)
      (gapBlank : AllBlank gap) (blank : AllBlank blanks)
      (read : Decimal.int? amount = some value) :
      UpdatesCounter counter (counter ++ (gap ++ (direction.sign :: '=' :: (blanks ++ amount))))

/-! ## Conditions -/

theorem isComparisonMark_of_isBlank {char : Char} (blank : isBlank char = true) :
    isComparisonMark char = false := by
  rw [← Bool.not_eq_true]
  intro mark
  rw [(visible_of_isComparisonMark mark).1] at blank
  cases blank

theorem AllBlank.unmarked_append {blanks text : Text} (blank : AllBlank blanks)
    (unmarked : ∀ char, text.head? = some char → isComparisonMark char = false) :
    ∀ char, (blanks ++ text).head? = some char → isComparisonMark char = false := by
  intro char first
  cases blanks with
  | nil => exact unmarked char first
  | cons other blanks =>
      cases first
      exact isComparisonMark_of_isBlank (blank char List.mem_cons_self)

section Condition

variable {counter : Identifier} {condition : Text}

/-- A condition on the counter, taken apart. -/
theorem BoundsCounter.exists_compared (bounds : BoundsCounter counter.text condition) :
    ∃ (comparison : Comparison) (blanks bound trailing : Text),
      AllBlank blanks ∧ AllBlank trailing ∧ IsBound bound ∧
        Compared condition counter.text comparison.marks (blanks ++ (bound ++ trailing)) := by
  obtain ⟨comparison, gap, blanks, bound, gapBlank, blank, isBound, trimmed⟩ := bounds
  obtain ⟨lead, trailing, leadBlank, trailingBlank, split⟩ := exists_surrounded_trim condition
  have compared := Compared.intro leadBlank counter.isWord gapBlank comparison.marks_ne_nil
    comparison.isComparisonMark_of_mem_marks
    (blank.unmarked_append (unmarked_append isBound.nonempty isBound.unmarked trailing))
  have shape : condition = lead ++ (counter.text ++
      (gap ++ (comparison.marks ++ (blanks ++ (bound ++ trailing))))) := by
    rw [split, trimmed]
    simp
  rw [← shape] at compared
  exact ⟨comparison, blanks, bound, trailing, blank, trailingBlank, isBound, compared⟩

theorem boundsCounter_of_compared {comparison : Comparison} {rest bound : Text}
    (compared : Compared condition counter.text comparison.marks rest) (has : HasOperand rest bound)
    (isBound : IsBound bound) : BoundsCounter counter.text condition := by
  cases has with
  | @visible blanks _ trailing blank isToken trailingBlank _ =>
      cases compared with
      | @intro lead _ gap _ _ leadBlank isWord gapBlank _ _ _ =>
          have starts : StartsSolid
              (counter.text ++ (gap ++ (comparison.marks ++ (blanks ++ bound)))) :=
            isWord.startsSolid.append isWord.nonempty
          have ends : EndsSolid
              (counter.text ++ (gap ++ (comparison.marks ++ (blanks ++ bound)))) := by
            simp only [← List.append_assoc]
            exact isToken.ends.append isToken.nonempty
          have trimmed := trim_surrounded leadBlank trailingBlank starts ends
          simp only [List.append_assoc] at trimmed
          exact ⟨comparison, gap, blanks, bound, gapBlank, blank, isBound, trimmed⟩
  | blank _ _ => exact absurd rfl isBound.nonempty

/-- A condition that is accepted is one on the counter if the counter is the word compared and if
there is a bound. -/
theorem boundsCounter_iff {word bound : Text} {comparison : Comparison}
    (compares : Compares condition word comparison.marks bound) :
    BoundsCounter counter.text condition ↔ word = counter.text ∧ IsBound bound := by
  constructor
  · intro bounds
    obtain ⟨_, blanks, realBound, trailing, blank, trailingBlank, isBound, own⟩ :=
      bounds.exists_compared
    cases compares with
    | operand compared has =>
        obtain ⟨sameWord, _, rfl⟩ := compared.unique own
        have sameBound : bound = realBound := by
          rw [has.eq_trim, ← List.append_assoc,
            trim_surrounded blank trailingBlank isBound.starts isBound.ends]
        rw [sameBound]
        exact ⟨sameWord, isBound⟩
    | mark compared _ =>
        have nothing := (compared.unique own).2.2
        simp [isBound.nonempty] at nothing
  · intro ⟨sameWord, isBound⟩
    cases compares with
    | operand compared has => exact boundsCounter_of_compared (sameWord ▸ compared) has isBound
    | @mark last compared _ =>
        have marked := compared.isComparisonMark_of_mem last (by simp)
        rw [isBound.unmarked last rfl] at marked
        cases marked

end Condition

/-! ## Updates -/

theorem Direction.sign_outside (direction : Direction) :
    isIdentifierChar direction.sign = false ∧ isIdentifierStart direction.sign = false := by
  cases direction <;> decide

section Update

variable {counter : Identifier} {gap moved : Text} {mark : Char}

/-- What stands behind a mark is moved by it. -/
theorem Flanks.eq_of_inFront (blank : AllBlank gap) (outside : isIdentifierChar mark = false)
    {sign : Char} (flanks : Flanks [mark, mark] ([sign, sign] ++ (gap ++ counter.text)) moved) :
    moved = counter.text := by
  obtain ⟨rest, split, rfl⟩ := flanks
  have token := counter.isToken
  rcases split with front | back
  · have same : gap ++ counter.text = rest := (List.append_inj front rfl).2
    rw [← same, trim_append_left blank, trim_eq_self token.starts token.ends]
  · have last : ([sign, sign] ++ gap ++ counter.text).getLast? = some mark := by
      rw [List.append_assoc, back]
      simp
    exact absurd last (counter.getLast?_append_ne outside _)

/-- What stands in front of a mark is moved by it. -/
theorem Flanks.eq_of_behind (blank : AllBlank gap) (outside : isIdentifierStart mark = false)
    {sign : Char} (flanks : Flanks [mark, mark] (counter.text ++ (gap ++ [sign, sign])) moved) :
    moved = counter.text := by
  obtain ⟨rest, split, rfl⟩ := flanks
  have token := counter.isToken
  rcases split with front | back
  · have first : (counter.text ++ (gap ++ [sign, sign])).head? = some mark := by
      rw [front]
      rfl
    exact absurd first (counter.head?_append_ne outside _)
  · rw [← List.append_assoc] at back
    have same : counter.text ++ gap = rest := (List.append_inj' back rfl).1
    rw [← same, trim_append_right blank, trim_eq_self token.starts token.ends]

/-- An update with a mark at one of its ends is one of what is left without the mark. -/
theorem updatesCounter_of_flanks {update : Text} (direction : Direction)
    (starts : StartsSolid update) (ends : EndsSolid update)
    (flanks : Flanks [direction.sign, direction.sign] update counter.text) :
    UpdatesCounter counter.text update := by
  obtain ⟨rest, split, trimmed⟩ := flanks
  obtain ⟨front, back, frontBlank, backBlank, surrounded⟩ := exists_surrounded_trim rest
  rw [← trimmed] at surrounded
  rcases split with rfl | rfl
  · rw [surrounded, ← List.append_assoc] at ends
    rw [surrounded, backBlank.eq_nil_of_endsSolid ends.of_append, List.append_nil]
    exact .inFront direction frontBlank
  · rw [surrounded, List.append_assoc, List.append_assoc] at starts
    rw [surrounded, frontBlank.eq_nil_of_startsSolid starts, List.nil_append, List.append_assoc]
    exact .behind direction backBlank

theorem UpdatesCounter.eq_of_flanks {update : Text} (updates : UpdatesCounter counter.text update)
    (direction : Direction) (flanks : Flanks [direction.sign, direction.sign] update moved) :
    moved = counter.text := by
  have outside := direction.sign_outside
  cases updates with
  | inFront _ blank => exact flanks.eq_of_inFront blank outside.1
  | behind _ blank => exact flanks.eq_of_behind blank outside.2
  | compound other gapBlank blank read =>
      have flanked := flankedBy_iff.2 ⟨moved, flanks⟩
      rw [flankedBy_compound counter.isWord read other direction.visible_sign.2] at flanked
      cases flanked

theorem closesWord_sign {rest : Text} (blank : AllBlank gap) (direction : Direction) :
    closesWord (gap ++ (direction.sign :: rest)) = true :=
  blank.closesWord_append (closesWord_cons direction.visible_sign.2)

theorem UpdatesCounter.eq_of_compound {word blanks amount : Text} {value : Int}
    {direction : Direction} (isWord : IsWord word) (gapBlank : AllBlank gap)
    (read : Decimal.int? amount = some value)
    (updates : UpdatesCounter counter.text
      (word ++ (gap ++ (direction.sign :: '=' :: (blanks ++ amount))))) :
    word = counter.text := by
  have unflanked : ∀ other : Direction, flankedBy [other.sign, other.sign]
      (word ++ (gap ++ (direction.sign :: '=' :: (blanks ++ amount)))) = false := fun other =>
    flankedBy_compound isWord read direction other.visible_sign.2
  have closes : closesWord (gap ++ (direction.sign :: '=' :: (blanks ++ amount))) = true :=
    closesWord_sign gapBlank direction
  have wordFound := isWord.takeWhile_append closes
  -- From here on the update is known by its first word and by the lack of marks at its ends.
  generalize word ++ (gap ++ (direction.sign :: '=' :: (blanks ++ amount))) = update at *
  cases updates with
  | inFront other _ =>
      have flanked := unflanked other
      rw [flankedBy_append_left] at flanked
      cases flanked
  | behind other _ =>
      have flanked := unflanked other
      rw [← List.append_assoc, flankedBy_append_right] at flanked
      cases flanked
  | compound other otherBlank _ _ =>
      rw [← wordFound]
      exact counter.isWord.takeWhile_append (closesWord_sign otherBlank other)

/-- An update that is accepted is one of the counter if the counter is what it moves. -/
theorem updatesCounter_iff {update : Text} {step : Int} (starts : StartsSolid update)
    (ends : EndsSolid update) (moves : Moves update moved step) :
    UpdatesCounter counter.text update ↔ moved = counter.text := by
  constructor
  · intro updates
    cases moves with
    | increment flanks => exact updates.eq_of_flanks .up flanks
    | decrement _ flanks => exact updates.eq_of_flanks .down flanks
    | compound isWord gapBlank _ read _ _ _ => exact updates.eq_of_compound isWord gapBlank read
  · intro isCounter
    rw [isCounter] at moves
    cases moves with
    | increment flanks => exact updatesCounter_of_flanks .up starts ends flanks
    | decrement _ flanks => exact updatesCounter_of_flanks .down starts ends flanks
    | compound _ gapBlank blank read _ _ _ => exact .compound _ gapBlank blank read

end Update

/-! ## Verdicts -/

theorem Comparison.ofMarks?_eq_some_iff {marks : Text} {comparison : Comparison} :
    ofMarks? marks = some comparison ↔ marks = comparison.marks := by
  constructor
  · intro found
    rw [ofMarks?] at found
    split_ifs at found with below atMost above atLeast <;> cases found <;> assumption
  · rintro rfl
    exact comparison.ofMarks?_marks

theorem stepOf_eq_error {update : Text} {reason : Reason} (refused : stepOf update = .error reason) :
    reason = .updateShape update ∨
      ∃ direction operand, movement? update = some (direction, operand) ∧
        Decimal.word? operand = none ∧ reason = .stepNotLiteral operand := by
  rw [stepOf] at refused
  split_ifs at refused
  split at refused
  · cases refused
    exact .inl rfl
  · next direction operand movement =>
      split at refused
      · next unread =>
          cases refused
          exact .inr ⟨_, operand, movement, unread, rfl⟩
      all_goals
        split_ifs at refused
        cases refused
        exact .inl rfl

namespace LoopClauses

variable (clauses : LoopClauses)

/-- The range of an accepted header. -/
def rangeOf (comparison : Comparison) (bound : Text) (step : Int) : RangeHeader where
  counter := clauses.counter
  start := trim clauses.start
  stop := comparison.stop bound
  step := comparison.direct step

theorem range_eq_ok_iff {header : RangeHeader} :
    clauses.range = .ok header ↔
      ∃ word comparison bound moved step, Compares clauses.condition word comparison.marks bound ∧
        Moves (trim clauses.update) moved step ∧ header = clauses.rangeOf comparison bound step := by
  constructor
  · intro found
    rw [range] at found
    split at found
    · cases found
    · next marks bound compared =>
        split at found
        · cases found
        · next step stepFound =>
            split at found
            · cases found
            · next comparison ordered =>
                cases found
                obtain ⟨word, compares⟩ := comparison?_eq_some_iff.1 compared
                obtain ⟨moved, moves⟩ := exists_moves_of_stepOf (startsSolid_trim clauses.update)
                  (endsSolid_trim clauses.update) stepFound
                rw [Comparison.ofMarks?_eq_some_iff.1 ordered] at compares
                exact ⟨word, comparison, bound, moved, step, compares, moves, rfl⟩
  · rintro ⟨word, comparison, bound, moved, step, compares, moves, isHeader⟩
    have compared := comparison?_eq_some_iff.2 ⟨word, compares⟩
    simp only [range, compared, moves.stepOf_eq, comparison.ofMarks?_marks, isHeader]
    rfl

theorem verdict_eq_replace_iff {text : Text} :
    clauses.verdict = .replace text ↔
      ∃ word comparison bound moved step, Compares clauses.condition word comparison.marks bound ∧
        Moves (trim clauses.update) moved step ∧
        text = (clauses.rangeOf comparison bound step).render := by
  have rendered : clauses.verdict = .replace text ↔
      ∃ header, clauses.range = .ok header ∧ text = header.render := by
    rw [verdict]
    cases clauses.range <;> simp [eq_comm]
  rw [rendered]
  constructor
  · rintro ⟨header, found, isText⟩
    obtain ⟨word, comparison, bound, moved, step, compares, moves, rfl⟩ :=
      clauses.range_eq_ok_iff.1 found
    exact ⟨word, comparison, bound, moved, step, compares, moves, isText⟩
  · rintro ⟨word, comparison, bound, moved, step, compares, moves, isText⟩
    exact ⟨_, clauses.range_eq_ok_iff.2 ⟨word, comparison, bound, moved, step, compares, moves, rfl⟩,
      isText⟩

/-- A reason says what a header lacks. -/
def Lacks : Reason → Prop
  | .conditionShape condition =>
      condition = trim clauses.condition ∧
        ∀ word marks bound, ¬Compares clauses.condition word marks bound
  | .comparisonWithoutRange marks =>
      (∃ word bound, Compares clauses.condition word marks bound) ∧
        ∀ comparison : Comparison, marks ≠ comparison.marks
  | .updateShape update =>
      update = trim clauses.update ∧ ∀ moved step, ¬Moves update moved step
  | .stepNotLiteral operand =>
      ∃ direction, movement? (trim clauses.update) = some (direction, operand) ∧
        Decimal.word? operand = none
  | _ => False

theorem lacks_of_range_eq_error {reason : Reason} (found : clauses.range = .error reason) :
    clauses.Lacks reason := by
  rw [range] at found
  split at found
  · next uncompared =>
      cases found
      refine ⟨rfl, fun word marks bound compares => ?_⟩
      rw [comparison?_eq_some_iff.2 ⟨word, compares⟩] at uncompared
      cases uncompared
  · next marks bound compared =>
      split at found
      · next refused =>
          cases found
          rcases stepOf_eq_error refused with rfl | ⟨direction, operand, movement, unread, rfl⟩
          · refine ⟨rfl, fun moved step moves => ?_⟩
            rw [moves.stepOf_eq] at refused
            cases refused
          · exact ⟨direction, movement, unread⟩
      · split at found
        · next unordered =>
            cases found
            obtain ⟨word, compares⟩ := comparison?_eq_some_iff.1 compared
            refine ⟨⟨word, bound, compares⟩, fun comparison isMarks => ?_⟩
            rw [Comparison.ofMarks?_eq_some_iff.2 isMarks] at unordered
            cases unordered
        · cases found

end LoopClauses

/-- A header becomes a range exactly if its condition compares a word with a bound and its update
moves something by a step. It counts as the range does exactly if the word and what is moved are
the counter, and if there is a bound. Every other header is kept, for a reason that holds of it. -/
theorem verdict_loopClauses (counter : Identifier) (start condition update : Text) :
    let clauses : LoopClauses := ⟨counter.text, start, condition, update⟩
    (∀ text, clauses.verdict = .replace text ↔
      ∃ word comparison bound moved step, Compares condition word comparison.marks bound ∧
        Moves (trim update) moved step ∧
        text = (clauses.rangeOf comparison bound step).render) ∧
    (∀ (word bound moved : Text) (comparison : Comparison) (step : Int),
      Compares condition word comparison.marks bound → Moves (trim update) moved step →
      (BoundsCounter counter.text condition ∧ UpdatesCounter counter.text (trim update) ↔
        word = counter.text ∧ IsBound bound ∧ moved = counter.text)) ∧
    ((∃ text, clauses.verdict = .replace text) ∨
      ∃ reason, clauses.verdict = .keep reason ∧ clauses.Lacks reason) := by
  intro clauses
  refine ⟨fun text => clauses.verdict_eq_replace_iff, ?_, ?_⟩
  · intro word bound moved comparison step compares moves
    rw [boundsCounter_iff compares,
      updatesCounter_iff (startsSolid_trim update) (endsSolid_trim update) moves, and_assoc]
  · cases found : clauses.range with
    | ok header => exact .inl ⟨header.render, by rw [LoopClauses.verdict, found]⟩
    | error reason =>
        exact .inr ⟨reason, by rw [LoopClauses.verdict, found], clauses.lacks_of_range_eq_error found⟩

/-- The counter of the headers below. -/
def counterI : Identifier where
  text := ['i']
  nonempty := List.cons_ne_nil _ _
  starts := by
    intro char first
    cases first
    decide
  inside := by decide

theorem verdict_loopClauses_atMost :
    (LoopClauses.mk ['i'] " 0".toList " i <= n - 1".toList "i -= -2 ".toList).verdict =
        .replace "for i in range(0, n - 1 + 1, 2):".toList ∧
      BoundsCounter ['i'] " i <= n - 1".toList ∧ UpdatesCounter ['i'] (trim "i -= -2 ".toList) := by
  have bound : IsBound "n - 1".toList := by
    constructor
    · exact ⟨by decide, startsSolid_of_head? rfl (by decide), endsSolid_of_getLast? rfl (by decide)⟩
    · intro char first
      cases first
      decide
  have stop : ∀ char, " n - 1".toList.head? = some char → isComparisonMark char = false := by
    intro char first
    cases first
    decide
  have compared : Compared ([' '] ++ (['i'] ++ ([' '] ++ (['<', '='] ++ " n - 1".toList)))) ['i']
      ['<', '='] " n - 1".toList :=
    .intro (by decide) counterI.isWord (by decide) (by decide) (by decide) stop
  have operand : HasOperand ([' '] ++ ("n - 1".toList ++ [])) "n - 1".toList :=
    .visible (by decide) bound.toIsToken allBlank_nil (by decide)
  have compares : Compares " i <= n - 1".toList ['i'] Comparison.atMost.marks "n - 1".toList :=
    .operand compared operand
  have compound : Moves (['i'] ++ ([' '] ++ (Direction.down.sign :: '=' :: ([' '] ++ "-2".toList))))
      ['i'] (Direction.down.signed (-2)) :=
    .compound counterI.isWord (by decide) (by decide) (by decide) (by decide) (by decide) (by decide)
  have trimmed : trim "i -= -2 ".toList =
      ['i'] ++ ([' '] ++ (Direction.down.sign :: '=' :: ([' '] ++ "-2".toList))) := by decide
  have moves : Moves (trim "i -= -2 ".toList) ['i'] 2 := trimmed ▸ compound
  have facts := verdict_loopClauses counterI " 0".toList " i <= n - 1".toList "i -= -2 ".toList
  refine ⟨(facts.1 _).2 ⟨['i'], .atMost, "n - 1".toList, ['i'], 2, compares, moves, by decide⟩, ?_⟩
  exact (facts.2.1 ['i'] "n - 1".toList ['i'] .atMost 2 compares moves).2 ⟨rfl, bound, rfl⟩

/-- The update moves two variables, and the range is empty. -/
theorem verdict_loopClauses_twoCounters :
    (LoopClauses.mk ['i'] ['0'] "i < n".toList "i++, j--".toList).verdict =
        .replace "for i in range(0, n, -1):".toList ∧
      ¬UpdatesCounter ['i'] (trim "i++, j--".toList) := by
  constructor
  · decide
  · have moves : Moves (trim "i++, j--".toList) "i++, j".toList (-1) :=
      .decrement (by decide) ⟨"i++, j".toList, .inr (by decide), by decide⟩
    have accepted : UpdatesCounter counterI.text (trim "i++, j--".toList) ↔
        "i++, j".toList = counterI.text :=
      updatesCounter_iff (startsSolid_trim _) (endsSolid_trim _) moves
    intro updates
    exact absurd (accepted.1 updates) (by decide)

end Offside
