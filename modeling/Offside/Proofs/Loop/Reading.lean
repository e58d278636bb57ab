import Offside.Proofs.Loop.Clauses

/-!
# Reading the clauses of a counted loop

What a condition and an update have to look like to be read. A condition compares some word with a
bound. An update has `++` or `--` at one of its ends, or it moves some word by a literal. Blanks may
stand between the parts of both.
-/

namespace Offside

/-- The marks of a comparison. -/
def Comparison.marks : Comparison → Text
  | below => ['<']
  | atMost => ['<', '=']
  | above => ['>']
  | atLeast => ['>', '=']

theorem Comparison.ofMarks?_marks (comparison : Comparison) :
    ofMarks? comparison.marks = some comparison := by
  cases comparison <;> rfl

/-- A bound, with no mark of a comparison in front. -/
structure IsBound (bound : Text) : Prop extends IsToken bound where
  unmarked : ∀ char, bound.head? = some char → isComparisonMark char = false

/-- A bound on one line. -/
structure IsOperand (operand : Text) : Prop extends IsBound operand where
  single : '\n' ∉ operand

/-! ## Operands -/

/-- An operand with blanks around it, on one line with the end of the text. Blanks alone make an
empty operand. -/
inductive HasOperand : (text operand : Text) → Prop where
  | visible {blanks operand trailing : Text} (blank : AllBlank blanks) (isToken : IsToken operand)
      (trailingBlank : AllBlank trailing) (single : '\n' ∉ operand ++ trailing) :
      HasOperand (blanks ++ (operand ++ trailing)) operand
  | blank {blanks : Text} {last : Char} (blank : AllBlank (blanks ++ [last]))
      (noNewline : last ≠ '\n') : HasOperand (blanks ++ [last]) []

theorem HasOperand.eq_trim {text operand : Text} (has : HasOperand text operand) :
    operand = trim text := by
  cases has with
  | visible blank isToken trailingBlank _ =>
      rw [← List.append_assoc, trim_surrounded blank trailingBlank isToken.starts isToken.ends]
  | blank blank _ => exact (trim_eq_nil_iff.2 blank).symm

theorem hasOperand_of_operand? {text operand : Text} (found : operand? text = some operand) :
    HasOperand text operand := by
  rw [operand?] at found
  split at found
  · next skipped =>
      split at found
      · next last isLast =>
          rw [Option.ite_none_left_eq_some, Option.some.injEq] at found
          obtain ⟨noNewline, rfl⟩ := found
          obtain ⟨blanks, rfl⟩ := List.getLast?_eq_some_iff.1 isLast
          have trimmed : trim (blanks ++ [last]) = [] := by
            rw [trim, skipped]
            rfl
          exact .blank (trim_eq_nil_iff.1 trimmed) noNewline
      · cases found
  · next visible =>
      rw [Option.ite_none_left_eq_some, Option.some.injEq] at found
      obtain ⟨single, rfl⟩ := found
      obtain ⟨blanks, blank, splitFront⟩ := exists_append_skipBlanks text
      obtain ⟨trailing, trailingBlank, splitBack⟩ := exists_trimEnd_append (skipBlanks text)
      have isToken : IsToken (trimEnd (skipBlanks text)) := by
        constructor
        · intro empty
          exact visible (skipBlanks_eq_nil (trim_eq_nil_iff.1 empty))
        · exact startsSolid_trim text
        · exact endsSolid_trim text
      rw [splitBack] at single
      have has := HasOperand.visible blank isToken trailingBlank single
      rwa [← splitBack, ← splitFront] at has

theorem HasOperand.operand?_eq {text operand : Text} (has : HasOperand text operand) :
    operand? text = some operand := by
  cases has with
  | visible blank isToken trailingBlank single =>
      rw [operand?, skipBlanks_append blank,
        (isToken.starts.append isToken.nonempty).skipBlanks_eq]
      split
      · next empty => exact absurd (List.append_eq_nil_iff.1 empty).1 isToken.nonempty
      · rw [if_neg single, trimEnd_append trailingBlank, isToken.ends.trimEnd_eq]
  | blank blank noNewline =>
      rw [operand?, skipBlanks_eq_nil blank]
      simp [noNewline]

/-! ## Conditions -/

/-- A text goes on with no mark if it does not start with one. -/
theorem unmarked_append {text : Text} (nonempty : text ≠ [])
    (unmarked : ∀ char, text.head? = some char → isComparisonMark char = false) (trailing : Text) :
    ∀ char, (text ++ trailing).head? = some char → isComparisonMark char = false := by
  intro char first
  obtain ⟨head, tail, rfl⟩ := List.exists_cons_of_ne_nil nonempty
  exact unmarked char first

theorem Comparison.marks_ne_nil (comparison : Comparison) : comparison.marks ≠ [] := by
  cases comparison <;> exact List.cons_ne_nil _ _

theorem Comparison.isComparisonMark_of_mem_marks (comparison : Comparison) :
    ∀ char ∈ comparison.marks, isComparisonMark char = true := by
  cases comparison <;> decide

theorem isComparisonMark_iff {char : Char} :
    isComparisonMark char = true ↔ char ∈ ['<', '>', '=', '!'] :=
  decide_eq_true_iff

/-- The marks of a comparison are no blanks and not part of words. -/
theorem visible_of_isComparisonMark {char : Char} (mark : isComparisonMark char = true) :
    isBlank char = false ∧ isWordChar char = false := by
  have every : ∀ mark ∈ ['<', '>', '=', '!'], isBlank mark = false ∧ isWordChar mark = false := by
    decide
  exact every char (isComparisonMark_iff.1 mark)

/-- A condition starts with a word and with all marks that stand behind it. -/
inductive Compared : (condition word marks rest : Text) → Prop where
  | intro {lead word gap marks rest : Text} (leadBlank : AllBlank lead) (isWord : IsWord word)
      (gapBlank : AllBlank gap) (nonempty : marks ≠ [])
      (inside : ∀ char ∈ marks, isComparisonMark char = true)
      (stop : ∀ char, rest.head? = some char → isComparisonMark char = false) :
      Compared (lead ++ (word ++ (gap ++ (marks ++ rest)))) word marks rest

namespace Compared

variable {condition word marks rest : Text}

theorem marks_ne_nil (compared : Compared condition word marks rest) : marks ≠ [] := by
  cases compared with
  | intro _ _ _ nonempty _ _ => exact nonempty

theorem isComparisonMark_of_mem (compared : Compared condition word marks rest) :
    ∀ char ∈ marks, isComparisonMark char = true := by
  cases compared with
  | intro _ _ _ _ inside _ => exact inside

theorem head?_rest (compared : Compared condition word marks rest) :
    ∀ char, rest.head? = some char → isComparisonMark char = false := by
  cases compared with
  | intro _ _ _ _ _ stop => exact stop

theorem word?_eq (compared : Compared condition word marks rest) :
    ∃ behind, word? (skipBlanks condition) = some (word, behind) ∧
      skipBlanks behind = marks ++ rest := by
  cases compared with
  | @intro lead _ gap _ _ leadBlank isWord gapBlank nonempty inside stop =>
      obtain ⟨first, others, rfl⟩ := List.exists_cons_of_ne_nil nonempty
      have visible := visible_of_isComparisonMark (inside first List.mem_cons_self)
      refine ⟨gap ++ (first :: others ++ rest), ?_, ?_⟩
      · rw [skipBlanks_append leadBlank,
          (isWord.startsSolid.append isWord.nonempty).skipBlanks_eq]
        exact isWord.word?_append (gapBlank.closesWord_append (closesWord_cons visible.2))
      · rw [skipBlanks_append gapBlank]
        exact skipBlanks_cons_of_solid visible.1 _

theorem takeWhile_eq (compared : Compared condition word marks rest) :
    (marks ++ rest).takeWhile isComparisonMark = marks :=
  takeWhile_append_of_stop compared.isComparisonMark_of_mem compared.head?_rest

theorem dropWhile_eq (compared : Compared condition word marks rest) :
    (marks ++ rest).dropWhile isComparisonMark = rest :=
  dropWhile_append_of_stop compared.isComparisonMark_of_mem compared.head?_rest

/-- There is one way to take a condition apart. -/
theorem unique {otherWord otherMarks otherRest : Text}
    (compared : Compared condition word marks rest)
    (other : Compared condition otherWord otherMarks otherRest) :
    word = otherWord ∧ marks = otherMarks ∧ rest = otherRest := by
  obtain ⟨behind, found, skipped⟩ := compared.word?_eq
  obtain ⟨otherBehind, otherFound, otherSkipped⟩ := other.word?_eq
  rw [found, Option.some.injEq, Prod.mk.injEq] at otherFound
  obtain ⟨rfl, rfl⟩ := otherFound
  have same : marks ++ rest = otherMarks ++ otherRest := skipped.symm.trans otherSkipped
  refine ⟨rfl, ?_, ?_⟩
  · rw [← compared.takeWhile_eq, same, other.takeWhile_eq]
  · rw [← compared.dropWhile_eq, same, other.dropWhile_eq]

theorem comparison?_eq (compared : Compared condition word marks rest) :
    comparison? condition =
      match operand? rest with
      | some bound => some (marks, bound)
      | none =>
          Option.bind (guard (rest = [] ∧ 2 ≤ marks.length)) fun _ =>
            some (marks.dropLast, marks.drop (marks.length - 1)) := by
  obtain ⟨behind, found, skipped⟩ := compared.word?_eq
  rw [comparison?, found]
  simp only [Option.bind_eq_bind, Option.bind_some, skipped, compared.takeWhile_eq,
    compared.dropWhile_eq]
  rw [guard_of_true compared.marks_ne_nil]
  rfl

end Compared

theorem exists_compared_of_comparison? {condition : Text} {result : Text × Text}
    (found : comparison? condition = some result) :
    ∃ word marks rest, Compared condition word marks rest := by
  rw [comparison?] at found
  obtain ⟨⟨word, behind⟩, wordFound, found⟩ := Option.bind_eq_some_iff.1 found
  obtain ⟨_, guarded, _⟩ := Option.bind_eq_some_iff.1 found
  have nonempty : (skipBlanks behind).takeWhile isComparisonMark ≠ [] := by
    simpa using guarded
  obtain ⟨lead, leadBlank, splitLead⟩ := exists_append_skipBlanks condition
  obtain ⟨gap, gapBlank, splitGap⟩ := exists_append_skipBlanks behind
  have splitWord := (word?_eq_some wordFound).2
  have inside := List.all_eq_true.1 (@List.all_takeWhile _ isComparisonMark (skipBlanks behind))
  have stop : ∀ char, ((skipBlanks behind).dropWhile isComparisonMark).head? = some char →
      isComparisonMark char = false := fun _ => head?_dropWhile
  have compared := Compared.intro leadBlank (isWord_of_word? wordFound) gapBlank nonempty inside stop
  rw [List.takeWhile_append_dropWhile, ← splitGap, ← splitWord, ← splitLead] at compared
  exact ⟨_, _, _, compared⟩

/-- A condition compares a word with a bound. When nothing stands behind two or more marks, the
last of them is taken for the bound. -/
inductive Compares : (condition word marks bound : Text) → Prop where
  | operand {condition word marks rest bound : Text} (compared : Compared condition word marks rest)
      (has : HasOperand rest bound) : Compares condition word marks bound
  | mark {condition word marks : Text} {last : Char}
      (compared : Compared condition word (marks ++ [last]) []) (nonempty : marks ≠ []) :
      Compares condition word marks [last]

theorem comparison?_eq_some_iff {condition marks bound : Text} :
    comparison? condition = some (marks, bound) ↔ ∃ word, Compares condition word marks bound := by
  constructor
  · intro found
    obtain ⟨word, allMarks, rest, compared⟩ := exists_compared_of_comparison? found
    rw [compared.comparison?_eq] at found
    split at found
    · next operand read =>
        cases found
        exact ⟨word, .operand compared (hasOperand_of_operand? read)⟩
    · obtain ⟨_, guarded, result⟩ := Option.bind_eq_some_iff.1 found
      obtain ⟨rfl, long⟩ : rest = [] ∧ 2 ≤ allMarks.length := by simpa using guarded
      obtain ⟨front, last, rfl⟩ := List.eq_nil_or_concat allMarks |>.resolve_left compared.marks_ne_nil
      cases result
      have nonempty : front ≠ [] := by
        rintro rfl
        simp at long
      refine ⟨word, ?_⟩
      simpa using Compares.mark (by simpa using compared) nonempty
  · rintro ⟨word, compares⟩
    cases compares with
    | operand compared has => rw [compared.comparison?_eq, has.operand?_eq]
    | @mark last compared nonempty =>
        have long : 2 ≤ (marks ++ [last]).length := by
          have some := List.length_pos_iff.2 nonempty
          rw [List.length_append]
          exact Nat.succ_le_succ some
        -- There is no operand behind the marks, so the last of them is given up for it.
        rw [compared.comparison?_eq]
        have nothing : operand? [] = none := rfl
        simp only [nothing]
        rw [guard_of_true ⟨trivial, long⟩]
        simp

/-- A condition is read as its marks and its bound. -/
theorem comparison?_append {counter toMarks toBound bound trailing : Text}
    (isWord : IsWord counter) (marksGap : IsGap toMarks) (boundGap : IsGap toBound)
    (isOperand : IsOperand bound) (trailingGap : IsGap trailing) (comparison : Comparison) :
    comparison? (counter ++
        (toMarks ++ (comparison.marks ++ (toBound ++ (bound ++ trailing))))) =
      some (comparison.marks, bound) := by
  have single : '\n' ∉ bound ++ trailing := by
    simp [isOperand.single, trailingGap.newline_notMem]
  have stop := boundGap.head?_append (by decide) (by decide)
    (unmarked_append isOperand.nonempty isOperand.unmarked trailing)
  have compared := Compared.intro allBlank_nil isWord marksGap.allBlank comparison.marks_ne_nil
    comparison.isComparisonMark_of_mem_marks stop
  have has := HasOperand.visible boundGap.allBlank isOperand.toIsToken trailingGap.allBlank single
  exact comparison?_eq_some_iff.2 ⟨counter, .operand compared has⟩

/-! ## Updates -/

theorem flankedBy_append_left (mark back : Text) : flankedBy mark (mark ++ back) = true := by
  have starts : mark.isPrefixOf (mark ++ back) = true :=
    List.isPrefixOf_iff_prefix.2 (List.prefix_append mark back)
  rw [flankedBy, starts, Bool.true_or]

theorem flankedBy_append_right (front mark : Text) : flankedBy mark (front ++ mark) = true := by
  have ends : mark.isSuffixOf (front ++ mark) = true :=
    List.isSuffixOf_iff_suffix.2 (List.suffix_append front mark)
  rw [flankedBy, ends, Bool.or_true]

theorem flankedBy_eq_false {mark : Char} {text : Text} (first : text.head? ≠ some mark)
    (last : text.getLast? ≠ some mark) : flankedBy [mark, mark] text = false := by
  rw [flankedBy, Bool.or_eq_false_iff, ← Bool.not_eq_true, ← Bool.not_eq_true,
    List.isPrefixOf_iff_prefix, List.isSuffixOf_iff_suffix]
  constructor
  · rintro ⟨back, rfl⟩
    exact first rfl
  · rintro ⟨front, rfl⟩
    apply last
    rw [List.getLast?_append]
    rfl

/-- The sign of a direction. -/
def Direction.sign : Direction → Char
  | up => '+'
  | down => '-'

/-- A mark stands in front of a text or behind it. -/
def Flanks (mark update moved : Text) : Prop :=
  ∃ rest, (update = mark ++ rest ∨ update = rest ++ mark) ∧ moved = trim rest

theorem flankedBy_iff {mark update : Text} :
    flankedBy mark update = true ↔ ∃ moved, Flanks mark update moved := by
  constructor
  · intro flanked
    rw [flankedBy, Bool.or_eq_true, List.isPrefixOf_iff_prefix, List.isSuffixOf_iff_suffix] at flanked
    rcases flanked with ⟨rest, split⟩ | ⟨rest, split⟩
    · exact ⟨trim rest, rest, .inl split.symm, rfl⟩
    · exact ⟨trim rest, rest, .inr split.symm, rfl⟩
  · rintro ⟨_, rest, rfl | rfl, _⟩
    · exact flankedBy_append_left mark rest
    · exact flankedBy_append_right rest mark

/-- An amount in its direction. -/
def Direction.signed : Direction → Int → Int
  | up, amount => amount
  | down, amount => -amount

/-- What an update moves, and how far. A step other than one has to be a literal, and it has to fit
a word as it is written and in its direction. -/
inductive Moves : (update moved : Text) → (step : Int) → Prop where
  | increment {update moved : Text} (flanks : Flanks "++".toList update moved) : Moves update moved 1
  | decrement {update moved : Text} (noIncrement : flankedBy "++".toList update = false)
      (flanks : Flanks "--".toList update moved) : Moves update moved (-1)
  | compound {word gap blanks amount : Text} {direction : Direction} {value : Int}
      (isWord : IsWord word) (gapBlank : AllBlank gap) (blank : AllBlank blanks)
      (read : Decimal.int? amount = some value) (nonzero : value ≠ 0)
      (fits : Decimal.fitsWord value = true)
      (stepFits : Decimal.fitsWord (direction.signed value) = true) :
      Moves (word ++ (gap ++ (direction.sign :: '=' :: (blanks ++ amount)))) word
        (direction.signed value)

/-! ### Amounts -/

section Amount

variable {amount : Text} {value : Int} (read : Decimal.int? amount = some value)
include read

/-- A number is written in digits, with or without a sign in front of them. -/
theorem exists_digits_of_int? :
    ∃ sign digits : Text, amount = sign ++ digits ∧ (∀ char ∈ sign, char ∈ ['+', '-']) ∧
      digits ≠ [] ∧ ∀ char ∈ digits, char.isDigit = true := by
  have digits_of_nat? : ∀ {digits : Text} {number : Nat}, Decimal.nat? digits = some number →
      digits ≠ [] ∧ ∀ char ∈ digits, char.isDigit = true := by
    intro digits number found
    rw [Decimal.nat?, Option.ite_none_right_eq_some, List.all_eq_true] at found
    exact found.1
  rw [Decimal.int?.eq_def] at read
  split at read
  · next digits =>
      obtain ⟨number, found, _⟩ := Option.map_eq_some_iff.1 read
      exact ⟨['+'], digits, rfl, by simp, digits_of_nat? found⟩
  · next digits =>
      obtain ⟨number, found, _⟩ := Option.map_eq_some_iff.1 read
      exact ⟨['-'], digits, rfl, by simp, digits_of_nat? found⟩
  · obtain ⟨number, found, _⟩ := Option.map_eq_some_iff.1 read
    exact ⟨[], amount, rfl, by simp, digits_of_nat? found⟩

theorem isBlank_eq_false_of_int? : ∀ char ∈ amount, isBlank char = false := by
  obtain ⟨sign, digits, rfl, signs, _, inside⟩ := exists_digits_of_int? read
  have visible : ∀ sign ∈ ['+', '-'], isBlank sign = false := by decide
  intro char member
  rcases List.mem_append.1 member with inSign | inDigits
  · exact visible char (signs char inSign)
  · exact isBlank_eq_false_of_isAlphanum (isAlphanum_of_isDigit (inside char inDigits))

theorem isToken_of_int? : IsToken amount := by
  have visible := isBlank_eq_false_of_int? read
  obtain ⟨sign, digits, rfl, _, nonempty, _⟩ := exists_digits_of_int? read
  constructor
  · simp [nonempty]
  · intro char first
    exact visible char (List.mem_of_head? first)
  · intro char last
    exact visible char (List.mem_of_getLast? last)

theorem newline_notMem_of_int? : '\n' ∉ amount := by
  intro member
  cases isBlank_eq_false_of_int? read '\n' member

/-- A number ends in a digit, whatever stands in front of it. -/
theorem isDigit_of_getLast?_of_int? {front : Text} {char : Char}
    (last : (front ++ amount).getLast? = some char) : char.isDigit = true := by
  obtain ⟨sign, digits, rfl, _, nonempty, inside⟩ := exists_digits_of_int? read
  rw [← List.append_assoc] at last
  exact inside char (mem_of_getLast?_append nonempty last)

end Amount

/-! ### Compound updates -/

theorem exists_of_movement? {update operand : Text} {direction : Direction}
    (found : movement? update = some (direction, operand)) :
    ∃ lead word gap rest, AllBlank lead ∧ IsWord word ∧ AllBlank gap ∧ HasOperand rest operand ∧
      update = lead ++ (word ++ (gap ++ (direction.sign :: '=' :: rest))) := by
  rw [movement?] at found
  obtain ⟨⟨word, behind⟩, wordFound, found⟩ := Option.bind_eq_some_iff.1 found
  obtain ⟨lead, leadBlank, splitLead⟩ := exists_append_skipBlanks update
  obtain ⟨gap, gapBlank, splitGap⟩ := exists_append_skipBlanks behind
  have splitWord := (word?_eq_some wordFound).2
  obtain ⟨rest, signed, read⟩ : ∃ rest, skipBlanks behind = direction.sign :: '=' :: rest ∧
      operand? rest = some operand := by
    simp only at found
    split at found
    · next rest signed =>
        obtain ⟨_, read, result⟩ := Option.bind_eq_some_iff.1 found
        cases result
        exact ⟨rest, signed, read⟩
    · next rest signed =>
        obtain ⟨_, read, result⟩ := Option.bind_eq_some_iff.1 found
        cases result
        exact ⟨rest, signed, read⟩
    · cases found
  refine ⟨lead, word, gap, rest, leadBlank, isWord_of_word? wordFound, gapBlank,
    hasOperand_of_operand? read, ?_⟩
  rw [← signed, ← splitGap, ← splitWord, ← splitLead]

theorem Direction.visible_sign (direction : Direction) :
    isBlank direction.sign = false ∧ isWordChar direction.sign = false := by
  cases direction <;> decide

theorem HasOperand.movement?_eq {word gap rest operand : Text} (has : HasOperand rest operand)
    (isWord : IsWord word) (gapBlank : AllBlank gap) (direction : Direction) :
    movement? (word ++ (gap ++ (direction.sign :: '=' :: rest))) = some (direction, operand) := by
  have visible := direction.visible_sign
  have closes : closesWord (direction.sign :: '=' :: rest) = true := closesWord_cons visible.2
  have word := isWord.word?_append (gapBlank.closesWord_append closes)
  rw [movement?, (isWord.startsSolid.append isWord.nonempty).skipBlanks_eq, word]
  simp only [Option.bind_eq_bind, Option.bind_some, skipBlanks_append gapBlank,
    skipBlanks_cons_of_solid visible.1]
  cases direction <;> simp [Direction.sign, has.operand?_eq]

/-- A trimmed update has no blanks around its parts. -/
theorem exists_of_movement?_trimmed {update operand : Text} {direction : Direction}
    (starts : StartsSolid update) (ends : EndsSolid update) (nonempty : operand ≠ [])
    (found : movement? update = some (direction, operand)) :
    ∃ word gap blanks, IsWord word ∧ AllBlank gap ∧ AllBlank blanks ∧
      update = word ++ (gap ++ (direction.sign :: '=' :: (blanks ++ operand))) := by
  obtain ⟨lead, word, gap, rest, leadBlank, isWord, gapBlank, has, rfl⟩ := exists_of_movement? found
  cases has with
  | @visible blanks _ trailing blank isToken trailingBlank _ =>
      have signed : EndsSolid ([direction.sign, '='] ++ (blanks ++ (operand ++ trailing))) :=
        ends.of_append.of_append.of_append
      refine ⟨word, gap, blanks, isWord, gapBlank, blank, ?_⟩
      rw [leadBlank.eq_nil_of_startsSolid starts,
        trailingBlank.eq_nil_of_endsSolid signed.of_append.of_append.of_append, List.nil_append,
        List.append_nil]
  | blank _ _ => exact absurd rfl nonempty

/-! ### Steps -/

theorem Decimal.word?_eq_some_iff {text : Text} {value : Int} :
    Decimal.word? text = some value ↔
      Decimal.int? text = some value ∧ Decimal.fitsWord value = true := by
  rw [Decimal.word?, Option.filter_eq_some_iff]

/-- The least word is the only one that does not fit a word with its sign changed. -/
theorem fitsWord_neg_iff {value : Int} (fits : Decimal.fitsWord value = true) :
    Decimal.fitsWord (-value) = true ↔ value ≠ Decimal.wordMin := by
  simp only [Decimal.fitsWord, Bool.and_eq_true, decide_eq_true_iff] at fits ⊢
  simp only [Decimal.wordMin, Decimal.wordMax] at fits ⊢
  omega

/-- A compound update has no mark at either end. -/
theorem flankedBy_compound {word gap blanks amount : Text} {value : Int} (isWord : IsWord word)
    (read : Decimal.int? amount = some value) (direction : Direction) {mark : Char}
    (noWord : isWordChar mark = false) :
    flankedBy [mark, mark] (word ++ (gap ++ (direction.sign :: '=' :: (blanks ++ amount)))) =
      false := by
  apply flankedBy_eq_false
  · intro first
    obtain ⟨char, others, rfl⟩ := List.exists_cons_of_ne_nil isWord.nonempty
    cases first
    rw [isWord.inside mark List.mem_cons_self] at noWord
    cases noWord
  · intro last
    have shape : word ++ (gap ++ (direction.sign :: '=' :: (blanks ++ amount))) =
        (word ++ gap ++ direction.sign :: '=' :: blanks) ++ amount := by simp
    rw [shape] at last
    have digit := isDigit_of_getLast?_of_int? read last
    rw [isWordChar_of_isAlphanum (isAlphanum_of_isDigit digit)] at noWord
    cases noWord

/-- A compound update by a number is refused if the number does not fit a word, if it is zero, or
if it is the least word and is subtracted. -/
theorem stepOf_of_int? {word gap blanks amount : Text} {value : Int} (isWord : IsWord word)
    (gapBlank : AllBlank gap) (blank : AllBlank blanks) (read : Decimal.int? amount = some value)
    (direction : Direction) :
    let update := word ++ (gap ++ (direction.sign :: '=' :: (blanks ++ amount)))
    stepOf update =
      if Decimal.fitsWord value = true then
        if value = 0 ∨ direction = .down ∧ value = Decimal.wordMin then
          .error (.updateShape update)
        else .ok (direction.signed value)
      else .error (.stepNotLiteral amount) := by
  intro update
  have has : HasOperand (blanks ++ amount) amount := by
    have visible := HasOperand.visible blank (isToken_of_int? read) allBlank_nil
      (by simpa using newline_notMem_of_int? read)
    rwa [List.append_nil] at visible
  have movement : movement? update = some (direction, amount) :=
    has.movement?_eq isWord gapBlank direction
  have noIncrement : flankedBy "++".toList update = false :=
    flankedBy_compound isWord read direction (by decide)
  have noDecrement : flankedBy "--".toList update = false :=
    flankedBy_compound isWord read direction (by decide)
  rw [stepOf, noIncrement, noDecrement]
  simp only [movement, Bool.false_eq_true, if_false]
  by_cases fits : Decimal.fitsWord value = true
  · rw [if_pos fits]
    simp only [Decimal.word?_eq_some_iff.2 ⟨read, fits⟩]
    cases direction with
    | up => simp [Direction.signed]
    | down => simp [Direction.signed]
  · have unread : Decimal.word? amount = none := by
      rw [Decimal.word?, read, Option.filter_some, if_neg fits]
    simp only [unread, if_neg fits]

theorem Moves.stepOf_eq {update moved : Text} {step : Int} (moves : Moves update moved step) :
    stepOf update = .ok step := by
  cases moves with
  | increment flanks => rw [stepOf, if_pos (flankedBy_iff.2 ⟨_, flanks⟩)]
  | decrement noIncrement flanks =>
      rw [stepOf, noIncrement, if_neg Bool.false_ne_true, if_pos (flankedBy_iff.2 ⟨_, flanks⟩)]
  | @compound _ gap blanks amount direction value isWord gapBlank blank read nonzero fits stepFits =>
      have noMin : ¬(direction = .down ∧ value = Decimal.wordMin) := by
        rintro ⟨rfl, isMin⟩
        exact (fitsWord_neg_iff fits).1 stepFits isMin
      rw [stepOf_of_int? isWord gapBlank blank read, if_pos fits, if_neg (not_or.2 ⟨nonzero, noMin⟩)]

/-- The literal of a compound update that has a step. -/
theorem exists_value_of_stepOf {update operand : Text} {direction : Direction} {step : Int}
    (noIncrement : flankedBy "++".toList update = false)
    (noDecrement : flankedBy "--".toList update = false)
    (movement : movement? update = some (direction, operand)) (found : stepOf update = .ok step) :
    ∃ value, Decimal.int? operand = some value ∧ value ≠ 0 ∧ Decimal.fitsWord value = true ∧
      Decimal.fitsWord (direction.signed value) = true ∧ step = direction.signed value := by
  rw [stepOf, noIncrement, noDecrement] at found
  simp only [movement] at found
  cases fitting : Decimal.word? operand with
  | none =>
      rw [fitting] at found
      cases found
  | some value =>
      obtain ⟨read, fits⟩ := Decimal.word?_eq_some_iff.1 fitting
      rw [fitting] at found
      refine ⟨value, read, ?_⟩
      cases direction with
      | up =>
          by_cases zero : value = 0
          · simp [zero] at found
          · have result : value = step := by simpa [zero] using found
            exact ⟨zero, fits, fits, result.symm⟩
      | down =>
          by_cases refused : value = 0 ∨ value = Decimal.wordMin
          · simp [refused] at found
          · have result : -value = step := by simpa [refused] using found
            obtain ⟨nonzero, noMin⟩ := not_or.1 refused
            exact ⟨nonzero, fits, (fitsWord_neg_iff fits).2 noMin, result.symm⟩

theorem exists_moves_of_stepOf {update : Text} {step : Int} (starts : StartsSolid update)
    (ends : EndsSolid update) (found : stepOf update = .ok step) :
    ∃ moved, Moves update moved step := by
  cases increment : flankedBy "++".toList update with
  | true =>
      obtain ⟨moved, flanks⟩ := flankedBy_iff.1 increment
      rw [stepOf, increment] at found
      cases found
      exact ⟨moved, .increment flanks⟩
  | false =>
      cases decrement : flankedBy "--".toList update with
      | true =>
          obtain ⟨moved, flanks⟩ := flankedBy_iff.1 decrement
          rw [stepOf, increment, decrement] at found
          cases found
          exact ⟨moved, .decrement increment flanks⟩
      | false =>
          cases movement : movement? update with
          | none =>
              rw [stepOf, increment, decrement] at found
              simp [movement] at found
          | some result =>
              obtain ⟨direction, operand⟩ := result
              obtain ⟨value, read, nonzero, fits, stepFits, rfl⟩ :=
                exists_value_of_stepOf increment decrement movement found
              obtain ⟨word, gap, blanks, isWord, gapBlank, blank, rfl⟩ :=
                exists_of_movement?_trimmed starts ends (isToken_of_int? read).nonempty movement
              exact ⟨word, .compound isWord gapBlank blank read nonzero fits stepFits⟩

end Offside
