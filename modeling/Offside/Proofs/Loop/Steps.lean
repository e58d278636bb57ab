import Mathlib.Algebra.Ring.Int.Defs
import Offside.Proofs.Loop.Acceptance
import Offside.Proofs.Loop.Opposition

/-!
# Steps in signed words

A step is a signed word of 64 bits. The amount of a compound update may be a number of any length,
so that it need not fit, and the least word fits while its opposite does not. Both are refused
before anything is computed from them. Every other amount is put in its direction and turned towards
the bound without a result that leaves the words.
-/

namespace Offside

/-! ## Numbers of any length -/

/-- A whole number as it is written, with or without a sign. -/
structure SignedNumeral where
  sign? : Option Direction
  digits : Text
  nonempty : digits ≠ []
  inside : ∀ char ∈ digits, char.isDigit = true

namespace SignedNumeral

/-- The text of a number. -/
def text (numeral : SignedNumeral) : Text :=
  (numeral.sign?.map Direction.sign).toList ++ numeral.digits

/-- The number that is written. -/
def value (numeral : SignedNumeral) : Int :=
  (numeral.sign?.getD .up).signed (Decimal.value numeral.digits)

variable (numeral : SignedNumeral)

/-- A number is read back with its value. -/
theorem int?_text : Decimal.int? numeral.text = some numeral.value := by
  obtain ⟨sign?, digits, nonempty, inside⟩ := numeral
  cases sign? with
  | none => exact (Literal.mk false digits nonempty inside).int?_text
  | some direction =>
      cases direction with
      | down => exact (Literal.mk true digits nonempty inside).int?_text
      | up =>
          have read : Decimal.nat? digits = some (Decimal.value digits) :=
            if_pos ⟨nonempty, List.all_eq_true.2 inside⟩
          exact congrArg (Option.map Int.ofNat) read

end SignedNumeral

theorem isOperand_of_int? {amount : Text} {value : Int} (read : Decimal.int? amount = some value) :
    IsOperand amount where
  toIsToken := isToken_of_int? read
  single := newline_notMem_of_int? read
  unmarked := by
    have unmarked : ∀ char ∈ amount, char ∈ ['<', '>', '=', '!'] → False := by
      obtain ⟨sign, digits, rfl, signs, _, inside⟩ := exists_digits_of_int? read
      intro char member mark
      rcases List.mem_append.1 member with inSign | inDigits
      · have apart : ∀ sign ∈ ['+', '-'], sign ∉ ['<', '>', '=', '!'] := by decide
        exact apart char (signs char inSign) mark
      · have apart : ∀ mark ∈ ['<', '>', '=', '!'], mark.isDigit = false := by decide
        have digit := inside char inDigits
        rw [apart char mark] at digit
        cases digit
    intro char first
    rw [← Bool.not_eq_true, isComparisonMark_iff]
    exact unmarked char (List.mem_of_head? first)

theorem IsWord.isOperand {word : Text} (isWord : IsWord word) : IsOperand word where
  nonempty := isWord.nonempty
  starts := isWord.startsSolid
  ends := isWord.endsSolid
  single := by
    intro member
    cases isWord.inside '\n' member
  unmarked := by
    intro char first
    rw [← Bool.not_eq_true]
    intro mark
    have inside := isWord.inside char (List.mem_of_head? first)
    rw [(visible_of_isComparisonMark mark).2] at inside
    cases inside

/-! ## The arithmetic of words -/

/-- An amount in its direction, in the arithmetic of words. -/
def Direction.signedWord : Direction → Int64 → Int64
  | up, amount => amount
  | down, amount => -amount

/-- A step in the direction of a comparison, in the arithmetic of words. -/
def Comparison.directWord (step : Int64) : Comparison → Int64
  | below | atMost => step
  | above | atLeast => if 0 < step then -step else step

theorem fitsWord_iff {value : Int} :
    Decimal.fitsWord value = true ↔ -2 ^ 63 ≤ value ∧ value < 2 ^ 63 := by
  simp only [Decimal.fitsWord, Bool.and_eq_true, decide_eq_true_iff]
  simp only [Decimal.wordMin, Decimal.wordMax]
  omega

theorem toInt_ofInt_of_fitsWord {value : Int} (fits : Decimal.fitsWord value = true) :
    (Int64.ofInt value).toInt = value :=
  Int64.toInt_ofInt_of_le (fitsWord_iff.1 fits).1 (fitsWord_iff.1 fits).2

/-- The least word is the only one whose opposite is no word. -/
theorem toInt_neg_of_ne_wordMin {word : Int64} (noMin : word.toInt ≠ Decimal.wordMin) :
    (-word).toInt = -word.toInt := by
  have above := word.le_toInt
  have below := word.toInt_lt
  rw [Decimal.wordMin] at noMin
  rw [Int64.toInt_neg]
  exact Int.bmod_eq_of_le (by omega) (by omega)

theorem Direction.toInt_signedWord {direction : Direction} {word : Int64}
    (noMin : ¬(direction = .down ∧ word.toInt = Decimal.wordMin)) :
    (direction.signedWord word).toInt = direction.signed word.toInt := by
  cases direction with
  | up => rfl
  | down => exact toInt_neg_of_ne_wordMin fun isMin => noMin ⟨rfl, isMin⟩

/-- Only positive steps are turned around, so that every step can be directed. -/
theorem Comparison.toInt_directWord (comparison : Comparison) (word : Int64) :
    (comparison.directWord word).toInt = comparison.direct word.toInt := by
  have positive : (0 : Int64) < word ↔ 0 < word.toInt := Int64.lt_iff_toInt_lt
  cases comparison with
  | below | atMost => rfl
  | above | atLeast =>
      simp only [directWord, direct]
      split_ifs with upward turned turned
      · have noMin : word.toInt ≠ Decimal.wordMin := by
          rw [Decimal.wordMin]
          omega
        exact toInt_neg_of_ne_wordMin noMin
      · exact absurd (positive.1 upward) turned
      · exact absurd (positive.2 turned) upward
      · rfl

/-! ## Accepted steps -/

/-- An accepted step fits a word and is not zero. -/
theorem Moves.fitsWord {update moved : Text} {step : Int} (moves : Moves update moved step) :
    Decimal.fitsWord step = true ∧ step ≠ 0 := by
  cases moves with
  | increment _ | decrement _ _ => decide
  | @compound _ _ _ _ direction value _ _ _ _ nonzero _ stepFits =>
      refine ⟨stepFits, ?_⟩
      cases direction with
      | up => exact nonzero
      | down => exact Int.neg_ne_zero.2 nonzero

namespace Comparison

variable {step : Int} {comparison : Comparison}

/-- A directed step fits a word if the step does. -/
theorem fitsWord_direct (fits : Decimal.fitsWord step = true) :
    Decimal.fitsWord (comparison.direct step) = true := by
  have directed := comparison.toInt_directWord (Int64.ofInt step)
  rw [toInt_ofInt_of_fitsWord fits] at directed
  rw [fitsWord_iff, ← directed]
  exact ⟨Int64.le_toInt _, Int64.toInt_lt _⟩

theorem direct_ne_zero (nonzero : step ≠ 0) : comparison.direct step ≠ 0 := by
  cases comparison with
  | below | atMost => exact nonzero
  | above | atLeast =>
      rw [direct]
      split_ifs <;> omega

/-- A downward comparison gets a downward step. -/
theorem direct_neg (nonzero : step ≠ 0) (downward : comparison.isUpward = false) :
    comparison.direct step < 0 := by
  cases comparison with
  | below | atMost => cases downward
  | above | atLeast =>
      rw [direct]
      split_ifs <;> omega

end Comparison

namespace LoopClauses

variable (clauses : LoopClauses)

/-- The loop over a range with some step, or without one. -/
def loopOf (comparison : Comparison) (bound : Text) (step? : Option Int) : RangeLoop where
  counter := clauses.counter
  start := trim clauses.start
  stop := comparison.stop bound
  step? := step?.map Decimal.ofInt

theorem render_rangeOf (comparison : Comparison) (bound : Text) (step : Int) :
    (clauses.rangeOf comparison bound step).render =
      (clauses.loopOf comparison bound
        (if comparison.direct step = 1 then none else some (comparison.direct step))).header := by
  unfold RangeHeader.render rangeOf RangeLoop.header loopOf
  split <;> rfl

/-- A condition compares a word with a word or a number, and an update moves a word by a number. -/
structure MovesByNumeral (comparison : Comparison) (bound : Text) (direction : Direction)
    (amount : SignedNumeral) : Prop where
  condition : ∃ word, IsWord word ∧ Spaced [word, comparison.marks, bound] clauses.condition
  bounded : IsWord bound ∨ ∃ number : SignedNumeral, bound = number.text
  update : ∃ word, IsWord word ∧
    Spaced [word, [direction.sign, '='], amount.text] clauses.update

namespace MovesByNumeral

variable {clauses} {comparison : Comparison} {bound : Text} {direction : Direction}
  {amount : SignedNumeral} (moves : clauses.MovesByNumeral comparison bound direction amount)
include moves

theorem comparison?_eq : comparison? clauses.condition = some (comparison.marks, bound) := by
  have isOperand : IsOperand bound := by
    rcases moves.bounded with isWord | ⟨number, rfl⟩
    · exact isWord.isOperand
    · exact isOperand_of_int? number.int?_text
  obtain ⟨word, isWord, spaced⟩ := moves.condition
  obtain ⟨toMarks, behind, marksGap, _, tail, split⟩ := spaced.exists_eq_append
  obtain ⟨toBound, last, boundGap, _, single, rfl⟩ := tail.exists_eq_append
  rw [split, single.eq_of_single, ← List.append_nil bound]
  simpa using comparison?_append isWord marksGap boundGap isOperand isGap_nil comparison

theorem stepOf_eq :
    stepOf (trim clauses.update) =
      if Decimal.fitsWord amount.value = true then
        if amount.value = 0 ∨ direction = .down ∧ amount.value = Decimal.wordMin then
          .error (.updateShape clauses.update)
        else .ok (direction.signed amount.value)
      else .error (.stepNotLiteral amount.text) := by
  obtain ⟨word, isWord, spaced⟩ := moves.update
  have isToken : IsToken clauses.update := by
    apply spaced.isToken
    intro token member
    simp only [List.mem_cons, List.not_mem_nil, or_false] at member
    rcases member with rfl | rfl | rfl
    · exact isWord.isOperand.toIsToken
    · cases direction <;>
        exact ⟨List.cons_ne_nil _ _, startsSolid_of_head? rfl (by decide),
          endsSolid_of_getLast? rfl (by decide)⟩
    · exact isToken_of_int? amount.int?_text
  rw [trim_eq_self isToken.starts isToken.ends]
  obtain ⟨toSign, behind, signGap, _, tail, split⟩ := spaced.exists_eq_append
  obtain ⟨toAmount, last, amountGap, _, single, rfl⟩ := tail.exists_eq_append
  rw [split, single.eq_of_single]
  exact stepOf_of_int? isWord signGap.allBlank amountGap.allBlank amount.int?_text direction

/-- What becomes of the header, by the number of its update. -/
theorem verdict_eq :
    clauses.verdict =
      if Decimal.fitsWord amount.value = true then
        if amount.value = 0 ∨ direction = .down ∧ amount.value = Decimal.wordMin then
          .keep (.updateShape clauses.update)
        else .replace (clauses.rangeOf comparison bound (direction.signed amount.value)).render
      else .keep (.stepNotLiteral amount.text) := by
  simp only [verdict, range, moves.comparison?_eq, moves.stepOf_eq]
  split_ifs
  · rfl
  · simp only [comparison.ofMarks?_marks]
    rfl
  · rfl

theorem verdict_eq_stepNotLiteral_iff {operand : Text} :
    clauses.verdict = .keep (.stepNotLiteral operand) ↔
      operand = amount.text ∧ ¬Decimal.fitsWord amount.value = true := by
  rw [moves.verdict_eq]
  split_ifs with fits refused <;> simp [fits, eq_comm]

theorem verdict_eq_updateShape_iff {update : Text} :
    clauses.verdict = .keep (.updateShape update) ↔
      update = clauses.update ∧
        (amount.value = 0 ∨ direction = .down ∧ amount.value = Decimal.wordMin) := by
  rw [moves.verdict_eq]
  split_ifs with fits refused
  · rw [Verdict.keep.injEq, Reason.updateShape.injEq, eq_comm]
    exact (and_iff_left refused).symm
  · simp [refused]
  · -- Zero and the least word fit a word, so they are refused for nothing else.
    have large : ¬(amount.value = 0 ∨ direction = .down ∧ amount.value = Decimal.wordMin) := by
      rintro (isZero | ⟨_, isMin⟩)
      · exact fits (isZero ▸ rfl)
      · exact fits (isMin ▸ rfl)
    simp [large]

theorem verdict_eq_replace_iff {text : Text} :
    clauses.verdict = .replace text ↔
      Decimal.fitsWord amount.value = true ∧
        ¬(amount.value = 0 ∨ direction = .down ∧ amount.value = Decimal.wordMin) ∧
        text = (clauses.rangeOf comparison bound (direction.signed amount.value)).render := by
  rw [moves.verdict_eq]
  split_ifs with fits refused
  · simp [refused]
  · rw [Verdict.replace.injEq, eq_comm]
    exact ⟨fun isText => ⟨fits, refused, isText⟩, fun accepted => accepted.2.2⟩
  · simp [fits]

omit moves in
/-- The step of an accepted amount is exact in the arithmetic of words, and so is every result on
the way to it. -/
theorem toInt_directWord_signedWord {value : Int} (fits : Decimal.fitsWord value = true)
    (accepted : ¬(value = 0 ∨ direction = .down ∧ value = Decimal.wordMin)) :
    (Int64.ofInt value).toInt = value ∧
      (direction.signedWord (Int64.ofInt value)).toInt = direction.signed value ∧
      (comparison.directWord (direction.signedWord (Int64.ofInt value))).toInt =
        comparison.direct (direction.signed value) := by
  have word := toInt_ofInt_of_fitsWord fits
  have noMin : ¬(direction = .down ∧ (Int64.ofInt value).toInt = Decimal.wordMin) := by
    rw [word]
    exact fun isMin => accepted (.inr isMin)
  have signed := Direction.toInt_signedWord noMin
  rw [word] at signed
  refine ⟨word, signed, ?_⟩
  rw [Comparison.toInt_directWord, signed]

end MovesByNumeral

/-- The step of an accepted header is written unless it is one, and it is negative behind a downward
comparison. -/
theorem exists_loopOf_of_verdict {text : Text} (accepted : clauses.verdict = .replace text) :
    ∃ word comparison bound step?, Compares clauses.condition word comparison.marks bound ∧
      text = (clauses.loopOf comparison bound step?).header ∧
      (comparison.isUpward = false → ∃ step, step? = some step ∧ step < 0) ∧
      ∀ step, step? = some step → step ≠ 0 ∧ step ≠ 1 ∧ -2 ^ 63 ≤ step ∧ step < 2 ^ 63 := by
  obtain ⟨word, comparison, bound, moved, step, compares, moves, rfl⟩ :=
    clauses.verdict_eq_replace_iff.1 accepted
  obtain ⟨fits, nonzero⟩ := moves.fitsWord
  refine ⟨word, comparison, bound, _, compares, clauses.render_rangeOf comparison bound step, ?_,
    ?_⟩
  · intro downward
    have negative := Comparison.direct_neg nonzero downward
    exact ⟨comparison.direct step, if_neg (by omega), negative⟩
  · intro written isWritten
    rw [Option.ite_none_left_eq_some, Option.some.injEq] at isWritten
    obtain ⟨notOne, rfl⟩ := isWritten
    exact ⟨Comparison.direct_ne_zero nonzero, notOne,
      fitsWord_iff.1 (Comparison.fitsWord_direct fits)⟩

/-- An accepted header is written with a step or without one. A step that is written is a word, is
neither zero nor one, and is negative if the comparison is a downward one; such a comparison always
has a written step.

An update by a number is refused as one without a literal exactly if the number does not fit a word.
It is refused for its shape exactly if the number is zero, or the least word and subtracted. It is
accepted otherwise, and then none of the results on the way to the step leaves the words. -/
theorem verdict_steps :
    (∀ (clauses : LoopClauses) (text : Text), clauses.verdict = .replace text →
      ∃ word comparison bound step?, Compares clauses.condition word comparison.marks bound ∧
        text = (clauses.loopOf comparison bound step?).header ∧
        (comparison.isUpward = false → ∃ step, step? = some step ∧ step < 0) ∧
        ∀ step, step? = some step → step ≠ 0 ∧ step ≠ 1 ∧ -2 ^ 63 ≤ step ∧ step < 2 ^ 63) ∧
    ∀ (clauses : LoopClauses) (comparison : Comparison) (bound : Text) (direction : Direction)
      (amount : SignedNumeral), clauses.MovesByNumeral comparison bound direction amount →
      let value := amount.value
      let step := direction.signed value
      let directed := comparison.direct step
      let refused := value = 0 ∨ direction = .down ∧ value = -2 ^ 63
      (∀ operand, clauses.verdict = .keep (.stepNotLiteral operand) ↔
        operand = amount.text ∧ ¬(-2 ^ 63 ≤ value ∧ value < 2 ^ 63)) ∧
      (∀ update, clauses.verdict = .keep (.updateShape update) ↔
        update = clauses.update ∧ refused) ∧
      (∀ text, clauses.verdict = .replace text ↔
        (-2 ^ 63 ≤ value ∧ value < 2 ^ 63) ∧ ¬refused ∧
          text = (clauses.loopOf comparison bound
            (if directed = 1 then none else some directed)).header) ∧
      ((-2 ^ 63 ≤ value ∧ value < 2 ^ 63) ∧ ¬refused →
        (Int64.ofInt value).toInt = value ∧
        (direction.signedWord (Int64.ofInt value)).toInt = step ∧
        (comparison.directWord (direction.signedWord (Int64.ofInt value))).toInt = directed) := by
  refine ⟨fun clauses text => clauses.exists_loopOf_of_verdict, ?_⟩
  intro clauses comparison bound direction amount moves value step directed refused
  have wordMin : Decimal.wordMin = -2 ^ 63 := rfl
  refine ⟨?_, ?_, ?_, ?_⟩
  · intro operand
    rw [moves.verdict_eq_stepNotLiteral_iff, fitsWord_iff]
  · intro update
    rw [moves.verdict_eq_updateShape_iff, wordMin]
  · intro text
    rw [moves.verdict_eq_replace_iff, fitsWord_iff, wordMin, render_rangeOf]
  · rintro ⟨fits, accepted⟩
    exact MovesByNumeral.toInt_directWord_signedWord (fitsWord_iff.2 fits) accepted

/-- The size of the least word, behind a sign or not. -/
def leastSize (sign? : Option Direction) : SignedNumeral :=
  ⟨sign?, "9223372036854775808".toList, by decide, by decide⟩

/-- A header that goes down to `n` and moves by the size of the least word. -/
def byLeastWord (direction : Direction) (sign? : Option Direction) : LoopClauses where
  counter := ['i']
  start := ['0']
  condition := "i >= n".toList
  update := ['i', ' ', direction.sign, '=', ' '] ++ (leastSize sign?).text

theorem movesByNumeral_byLeastWord (direction : Direction) (sign? : Option Direction) :
    (byLeastWord direction sign?).MovesByNumeral .atLeast ['n'] direction (leastSize sign?) where
  condition := by
    refine ⟨['i'], counterI.isWord, ?_⟩
    exact .cons _ [' '] (by decide) (by decide) <|
      .cons _ [' '] (by decide) (by decide) <| .single _
  bounded := .inl ⟨by decide, by decide⟩
  update := by
    refine ⟨['i'], counterI.isWord, ?_⟩
    exact .cons _ [' '] (by decide) (by simp) <| .cons _ [' '] (by decide) (by simp) <| .single _

/-- The least word can be added but not subtracted, and without its sign it is no word. -/
theorem verdict_steps_leastWord :
    (byLeastWord .up (some .down)).verdict =
        .replace "for i in range(0, n - 1, -9223372036854775808):".toList ∧
      (byLeastWord .down (some .down)).verdict =
        .keep (.updateShape "i -= -9223372036854775808".toList) ∧
      (byLeastWord .down none).verdict = .keep (.stepNotLiteral "9223372036854775808".toList) ∧
      ∃ word comparison bound step?,
        Compares "i >= n".toList word (Comparison.marks comparison) bound ∧
        "for i in range(0, n - 1, -9223372036854775808):".toList =
          ((byLeastWord .up (some .down)).loopOf comparison bound step?).header := by
  have accepted : (byLeastWord .up (some .down)).verdict =
      .replace "for i in range(0, n - 1, -9223372036854775808):".toList :=
    ((verdict_steps.2 _ _ _ _ _ (movesByNumeral_byLeastWord .up (some .down))).2.2.1 _).2
      ⟨by decide, by decide, by decide⟩
  refine ⟨accepted, ?_, ?_, ?_⟩
  · exact ((verdict_steps.2 _ _ _ _ _ (movesByNumeral_byLeastWord .down (some .down))).2.1 _).2
      ⟨rfl, by decide⟩
  · exact ((verdict_steps.2 _ _ _ _ _ (movesByNumeral_byLeastWord .down none)).1 _).2
      ⟨rfl, by decide⟩
  · obtain ⟨word, comparison, bound, step?, compares, written, _⟩ := verdict_steps.1 _ _ accepted
    exact ⟨word, comparison, bound, step?, compares, written⟩

end LoopClauses

end Offside
