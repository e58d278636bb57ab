import Offside.Declaration
import Offside.Naming
import Offside.Proofs.Text.Spans
import Offside.Text.Decimal

/-!
# Tokens

Identifiers, decimal literals, and texts that are written token by token. Between two tokens
there may be any spaces and tabs; there has to be one where both tokens would otherwise run
into one word.
-/

namespace Offside

/-! ## Visible characters -/

theorem isBlank_eq_false_of_visible {char : Char} (above : 0x20 < char.toNat)
    (ascii : char.toNat < 0x7F) : isBlank char = false := by
  have apart : ∀ range ∈ blankRanges, range.2 ≤ 0x20 ∨ 0x7F ≤ range.1 := by decide
  rw [← Bool.not_eq_true, isBlank, CodeRanges.covers_eq_true]
  rintro ⟨range, member, fromRange, toRange⟩
  have outside := apart range member
  omega

theorem isUpper_iff {char : Char} :
    char.isUpper = true ↔ 0x41 ≤ char.toNat ∧ char.toNat ≤ 0x5A := by
  have spelled : char.isUpper = decide ('A'.val ≤ char.val ∧ char.val ≤ 'Z'.val) := rfl
  rw [spelled, decide_eq_true_iff, UInt32.le_iff_toNat_le, UInt32.le_iff_toNat_le]
  rfl

theorem isLower_iff {char : Char} :
    char.isLower = true ↔ 0x61 ≤ char.toNat ∧ char.toNat ≤ 0x7A := by
  have spelled : char.isLower = (decide ('a'.val ≤ char.val) && decide (char.val ≤ 'z'.val)) := rfl
  rw [spelled, Bool.and_eq_true, decide_eq_true_iff, decide_eq_true_iff,
    UInt32.le_iff_toNat_le, UInt32.le_iff_toNat_le]
  rfl

theorem isDigit_iff {char : Char} :
    char.isDigit = true ↔ 0x30 ≤ char.toNat ∧ char.toNat ≤ 0x39 := by
  have spelled : char.isDigit = (decide ('0'.val ≤ char.val) && decide (char.val ≤ '9'.val)) := rfl
  rw [spelled, Bool.and_eq_true, decide_eq_true_iff, decide_eq_true_iff,
    UInt32.le_iff_toNat_le, UInt32.le_iff_toNat_le]
  rfl

theorem isAlpha_iff {char : Char} :
    char.isAlpha = true ↔ char.isUpper = true ∨ char.isLower = true := by
  have spelled : char.isAlpha = (char.isUpper || char.isLower) := rfl
  rw [spelled, Bool.or_eq_true]

theorem isAlphanum_iff {char : Char} :
    char.isAlphanum = true ↔ char.isAlpha = true ∨ char.isDigit = true := by
  have spelled : char.isAlphanum = (char.isAlpha || char.isDigit) := rfl
  rw [spelled, Bool.or_eq_true]

theorem toNat_of_isAlphanum {char : Char} (alphanum : char.isAlphanum = true) :
    0x30 ≤ char.toNat ∧ char.toNat ≤ 0x7A := by
  rw [isAlphanum_iff, isAlpha_iff, isUpper_iff, isLower_iff, isDigit_iff] at alphanum
  omega

theorem isBlank_eq_false_of_isAlphanum {char : Char} (alphanum : char.isAlphanum = true) :
    isBlank char = false := by
  have codes := toNat_of_isAlphanum alphanum
  exact isBlank_eq_false_of_visible (by omega) (by omega)

theorem isAlphanum_of_isDigit {char : Char} (digit : char.isDigit = true) :
    char.isAlphanum = true :=
  isAlphanum_iff.2 (.inr digit)

theorem isAlphanum_of_isAlpha {char : Char} (letter : char.isAlpha = true) :
    char.isAlphanum = true :=
  isAlphanum_iff.2 (.inl letter)

theorem isWordChar_of_isIdentifierChar {char : Char} (inside : isIdentifierChar char = true) :
    isWordChar char = true := by
  rw [isIdentifierChar, Bool.or_eq_true, decide_eq_true_eq] at inside
  rcases inside with alphanum | rfl
  · exact isWordChar_of_isAlphanum alphanum
  · decide

theorem isBlank_eq_false_of_isIdentifierChar {char : Char}
    (inside : isIdentifierChar char = true) : isBlank char = false := by
  rw [isIdentifierChar, Bool.or_eq_true, decide_eq_true_eq] at inside
  rcases inside with alphanum | rfl
  · exact isBlank_eq_false_of_isAlphanum alphanum
  · decide

/-- No blank is part of a word. -/
theorem isWordChar_of_isBlank {char : Char} (blank : isBlank char = true) :
    isWordChar char = false := by
  have apart : ∀ range ∈ blankRanges, ∀ word ∈ wordRanges,
      range.2 < word.1 ∨ word.2 < range.1 := by decide +kernel
  have ascii : ∀ range ∈ blankRanges, range.2 < 0x30 ∨ 0x80 ≤ range.1 := by decide
  rw [isBlank, CodeRanges.covers_eq_true] at blank
  obtain ⟨range, member, fromRange, toRange⟩ := blank
  rw [← Bool.not_eq_true, isWordChar]
  split
  · next small =>
      intro inside
      rw [Bool.or_eq_true, beq_iff_eq] at inside
      have outside := ascii range member
      rcases inside with alphanum | rfl
      · have codes := toNat_of_isAlphanum alphanum
        omega
      · have code : '_'.toNat = 0x5F := rfl
        omega
  · rw [CodeRanges.covers_eq_true]
    rintro ⟨word, inWords, fromWord, toWord⟩
    have := apart range member word inWords
    omega

theorem IsWord.isBlank_eq_false {word : Text} (isWord : IsWord word) {char : Char}
    (member : char ∈ word) : isBlank char = false := by
  rw [← Bool.not_eq_true]
  intro blank
  have inside := isWord.inside char member
  rw [isWordChar_of_isBlank blank] at inside
  cases inside

theorem IsWord.startsSolid {word : Text} (isWord : IsWord word) : StartsSolid word :=
  fun _ first => isWord.isBlank_eq_false (List.mem_of_head? first)

theorem IsWord.endsSolid {word : Text} (isWord : IsWord word) : EndsSolid word :=
  fun _ last => isWord.isBlank_eq_false (List.mem_of_getLast? last)

theorem AllBlank.closesWord_append {gap text : Text} (blank : AllBlank gap)
    (closes : closesWord text = true) : closesWord (gap ++ text) = true := by
  cases gap with
  | nil => exact closes
  | cons char gap => exact closesWord_cons (isWordChar_of_isBlank (blank char List.mem_cons_self))

theorem isBlank_of_isTabOrSpace {char : Char} (tabOrSpace : isTabOrSpace char = true) :
    isBlank char = true := by
  simp only [isTabOrSpace, Bool.or_eq_true, decide_eq_true_eq] at tabOrSpace
  rcases tabOrSpace with rfl | rfl <;> decide

theorem StartsSolid.isTabOrSpace_eq_false {text : Text} (solid : StartsSolid text) (char : Char)
    (first : text.head? = some char) : isTabOrSpace char = false := by
  cases tabOrSpace : isTabOrSpace char with
  | false => rfl
  | true =>
      have blank := isBlank_of_isTabOrSpace tabOrSpace
      rw [solid char first] at blank
      cases blank

theorem mem_of_getLast?_append {left right : Text} {char : Char} (nonempty : right ≠ [])
    (last : (left ++ right).getLast? = some char) : char ∈ right := by
  rw [List.getLast?_append, List.getLast?_eq_some_getLast nonempty] at last
  cases last
  exact List.getLast_mem nonempty

/-- Something visible, with no blanks around it. -/
structure IsToken (token : Text) : Prop where
  nonempty : token ≠ []
  starts : StartsSolid token
  ends : EndsSolid token

/-! ## Identifiers -/

/-- An ASCII identifier. -/
structure Identifier where
  text : Text
  nonempty : text ≠ []
  starts : ∀ char, text.head? = some char → isIdentifierStart char = true
  inside : ∀ char ∈ text, isIdentifierChar char = true

namespace Identifier

variable (identifier : Identifier)

theorem isWord : IsWord identifier.text where
  nonempty := identifier.nonempty
  inside char member := isWordChar_of_isIdentifierChar (identifier.inside char member)

theorem isToken : IsToken identifier.text where
  nonempty := identifier.nonempty
  starts char first := isBlank_eq_false_of_isIdentifierChar
    (identifier.inside char (List.mem_of_head? first))
  ends char last := isBlank_eq_false_of_isIdentifierChar
    (identifier.inside char (List.mem_of_getLast? last))

theorem notMem {char : Char} (outside : isIdentifierChar char = false) :
    char ∉ identifier.text := by
  intro member
  rw [identifier.inside char member] at outside
  cases outside

end Identifier

/-! ## Literals -/

namespace Decimal

theorem value_ofNat (value : Nat) : Decimal.value (ofNat value) = value := by
  have folded := Nat.ofDigitChars_ten_toDigits (n := value)
  rw [Nat.ofDigitChars_eq_foldl] at folded
  exact folded

theorem ofNat_ne_nil (value : Nat) : ofNat value ≠ [] :=
  Nat.toDigits_ne_nil

theorem isDigit_of_mem_ofNat {value : Nat} {char : Char} (member : char ∈ ofNat value) :
    char.isDigit = true :=
  Nat.isDigit_of_mem_toDigits (by decide) (by decide) member

end Decimal

/-- A whole number as it is written: digits with or without a minus sign in front of them. -/
structure Literal where
  negative : Bool
  digits : Text
  nonempty : digits ≠ []
  inside : ∀ char ∈ digits, char.isDigit = true

namespace Literal

/-- The text of a literal. -/
def text (literal : Literal) : Text :=
  if literal.negative then '-' :: literal.digits else literal.digits

/-- The number that a literal stands for. -/
def value (literal : Literal) : Int :=
  if literal.negative then -(Decimal.value literal.digits : Int)
  else Decimal.value literal.digits

/-- The literal of a whole number. -/
def ofInt : Int → Literal
  | .ofNat value =>
      ⟨false, Decimal.ofNat value, Decimal.ofNat_ne_nil value,
        fun _ => Decimal.isDigit_of_mem_ofNat⟩
  | .negSucc value =>
      ⟨true, Decimal.ofNat (value + 1), Decimal.ofNat_ne_nil (value + 1),
        fun _ => Decimal.isDigit_of_mem_ofNat⟩

theorem text_ofInt (value : Int) : (ofInt value).text = Decimal.ofInt value := by
  cases value <;> rfl

/-- Every whole number is written by a literal. -/
theorem value_ofInt (value : Int) : (ofInt value).value = value := by
  cases value with
  | ofNat value => exact congrArg Int.ofNat (Decimal.value_ofNat value)
  | negSucc value =>
      have digits := congrArg (fun value : Nat => -(value : Int)) (Decimal.value_ofNat (value + 1))
      exact digits

variable (literal : Literal)

/-- A literal is read back with its value. -/
theorem int?_text : Decimal.int? literal.text = some literal.value := by
  obtain ⟨negative, digits, nonempty, inside⟩ := literal
  have read : Decimal.nat? digits = some (Decimal.value digits) :=
    if_pos ⟨nonempty, List.all_eq_true.2 inside⟩
  cases negative with
  | true => simp [text, value, Decimal.int?, read]
  | false =>
      -- The first digit is no sign, so the literal is read without one.
      cases digits with
      | nil => exact absurd rfl nonempty
      | cons char digits =>
          have digit := inside char List.mem_cons_self
          have noPlus : char ≠ '+' := by
            rintro rfl
            cases digit
          have noMinus : char ≠ '-' := by
            rintro rfl
            cases digit
          simp [text, value, Decimal.int?, read, noPlus, noMinus]

theorem text_ne_nil : literal.text ≠ [] := by
  obtain ⟨negative, digits, nonempty, inside⟩ := literal
  cases negative with
  | true => exact List.cons_ne_nil _ _
  | false => exact nonempty

theorem isDigit_of_mem_text {char : Char} (member : char ∈ literal.text) :
    char = '-' ∨ char.isDigit = true := by
  obtain ⟨negative, digits, nonempty, inside⟩ := literal
  cases negative with
  | true =>
      rcases List.mem_cons.1 member with rfl | member
      · exact .inl rfl
      · exact .inr (inside char member)
  | false => exact .inr (inside char member)

theorem isBlank_eq_false_of_mem_text {char : Char} (member : char ∈ literal.text) :
    isBlank char = false := by
  rcases literal.isDigit_of_mem_text member with rfl | digit
  · decide
  · exact isBlank_eq_false_of_isAlphanum (isAlphanum_of_isDigit digit)

theorem isToken : IsToken literal.text where
  nonempty := literal.text_ne_nil
  starts _ first := literal.isBlank_eq_false_of_mem_text (List.mem_of_head? first)
  ends _ last := literal.isBlank_eq_false_of_mem_text (List.mem_of_getLast? last)

theorem notMem {char : Char} (noMinus : char ≠ '-') (noDigit : char.isDigit = false) :
    char ∉ literal.text := by
  intro member
  rcases literal.isDigit_of_mem_text member with minus | digit
  · exact noMinus minus
  · rw [digit] at noDigit
    cases noDigit

end Literal

/-! ## Free spacing -/

/-- Spaces and tabs only. -/
def IsGap (gap : Text) : Prop :=
  ∀ char ∈ gap, isTabOrSpace char = true

instance (gap : Text) : Decidable (IsGap gap) :=
  inferInstanceAs (Decidable (∀ char ∈ gap, isTabOrSpace char = true))

theorem isGap_nil : IsGap [] :=
  fun _ member => nomatch member

theorem IsGap.allBlank {gap : Text} (isGap : IsGap gap) : AllBlank gap :=
  fun char member => isBlank_of_isTabOrSpace (isGap char member)

theorem IsGap.newline_notMem {gap : Text} (isGap : IsGap gap) : '\n' ∉ gap := by
  intro member
  cases isGap '\n' member

/-- A gap in front of a text starts with no character of a class that holds neither of the
spaces and does not hold the start of the text. -/
theorem IsGap.head?_append {gap text : Text} (isGap : IsGap gap) {member : Char → Bool}
    (noSpace : member ' ' = false) (noTab : member '\t' = false)
    (outside : ∀ char, text.head? = some char → member char = false) :
    ∀ char, (gap ++ text).head? = some char → member char = false := by
  intro char first
  cases gap with
  | nil => exact outside char first
  | cons other gap =>
      cases first
      have tabOrSpace := isGap char List.mem_cons_self
      simp only [isTabOrSpace, Bool.or_eq_true, decide_eq_true_eq] at tabOrSpace
      rcases tabOrSpace with rfl | rfl
      · exact noSpace
      · exact noTab

theorem IsGap.closesWord_append {gap text : Text} (isGap : IsGap gap)
    (closes : closesWord text = true) : closesWord (gap ++ text) = true :=
  isGap.allBlank.closesWord_append closes

theorem IsGap.closesWord_of_ne_nil {gap : Text} (isGap : IsGap gap) (nonempty : gap ≠ [])
    (text : Text) : closesWord (gap ++ text) = true := by
  cases gap with
  | nil => exact absurd rfl nonempty
  | cons char gap =>
      have empty : closesWord [] = true := rfl
      have closes := isGap.closesWord_append empty
      rw [List.append_nil] at closes
      exact closesWord_cons (closesWord_iff.1 closes char rfl)

/-- Two tokens would run into one word. -/
def runTogether (left right : Text) : Bool :=
  left.getLast?.any isWordChar && right.head?.any isWordChar

/-- A text is written token by token, with gaps between the tokens. -/
inductive Spaced : List Text → Text → Prop where
  | single (token : Text) : Spaced [token] token
  | cons (token gap : Text) {next : Text} {tokens : List Text} {text : Text} :
      IsGap gap → (runTogether token next = true → gap ≠ []) →
      Spaced (next :: tokens) text →
      Spaced (token :: next :: tokens) (token ++ (gap ++ text))

namespace Spaced

theorem exists_eq_append {token next text : Text} {tokens : List Text}
    (spaced : Spaced (token :: next :: tokens) text) :
    ∃ gap rest, IsGap gap ∧ (runTogether token next = true → gap ≠ []) ∧
      Spaced (next :: tokens) rest ∧ text = token ++ (gap ++ rest) := by
  cases spaced with
  | cons _ gap isGap apart tail => exact ⟨gap, _, isGap, apart, tail, rfl⟩

theorem eq_of_single {token text : Text} (spaced : Spaced [token] text) : text = token := by
  cases spaced
  rfl

/-- Tokens in front of others are written in front of them, behind a gap. -/
theorem exists_append {left right : List Text} {text : Text} (spaced : Spaced (left ++ right) text)
    (leftNonempty : left ≠ []) (rightNonempty : right ≠ []) :
    ∃ leftText gap rightText, Spaced left leftText ∧ IsGap gap ∧ Spaced right rightText ∧
      text = leftText ++ (gap ++ rightText) := by
  induction left generalizing text with
  | nil => exact absurd rfl leftNonempty
  | cons token left ih =>
      cases left with
      | nil =>
          obtain ⟨next, others, rfl⟩ := List.exists_cons_of_ne_nil rightNonempty
          obtain ⟨gap, rest, isGap, _, tail, rfl⟩ := exists_eq_append spaced
          exact ⟨token, gap, rest, .single token, isGap, tail, rfl⟩
      | cons next others =>
          obtain ⟨first, rest, isFirst, apart, tail, rfl⟩ := exists_eq_append spaced
          obtain ⟨leftText, gap, rightText, leftSpaced, isGap, rightSpaced, rfl⟩ :=
            ih tail (List.cons_ne_nil next others)
          refine ⟨token ++ (first ++ leftText), gap, rightText, ?_, isGap, rightSpaced, ?_⟩
          · exact .cons token first isFirst apart leftSpaced
          · simp only [List.append_assoc]

theorem exists_cons {token text : Text} {tokens : List Text}
    (spaced : Spaced (token :: tokens) text) (nonempty : tokens ≠ []) :
    ∃ gap rest, IsGap gap ∧ Spaced tokens rest ∧ text = token ++ (gap ++ rest) := by
  obtain ⟨next, others, rfl⟩ := List.exists_cons_of_ne_nil nonempty
  obtain ⟨gap, rest, isGap, _, tail, split⟩ := exists_eq_append spaced
  exact ⟨gap, rest, isGap, tail, split⟩

/-- A text written from tokens is itself one, in the eyes of whoever trims it. -/
theorem isToken {tokens : List Text} {text : Text} (spaced : Spaced tokens text)
    (areTokens : ∀ token ∈ tokens, IsToken token) : IsToken text := by
  induction spaced with
  | single token => exact areTokens token List.mem_cons_self
  | cons token gap _ _ _ ih =>
      have first := areTokens token List.mem_cons_self
      have rest := ih fun other member => areTokens other (List.mem_cons_of_mem token member)
      constructor
      · intro empty
        exact first.nonempty (List.append_eq_nil_iff.1 empty).1
      · exact first.starts.append first.nonempty
      · rw [← List.append_assoc]
        exact rest.ends.append rest.nonempty

/-- A character that is in no token and in no gap is not in the text. -/
theorem notMem {tokens : List Text} {text : Text} (spaced : Spaced tokens text) {char : Char}
    (outside : isTabOrSpace char = false) (free : ∀ token ∈ tokens, char ∉ token) :
    char ∉ text := by
  induction spaced with
  | single token => exact free token List.mem_cons_self
  | cons token gap isGap _ _ ih =>
      intro member
      rw [List.mem_append, List.mem_append] at member
      rcases member with inToken | inGap | inRest
      · exact free token List.mem_cons_self inToken
      · rw [isGap char inGap] at outside
        cases outside
      · exact ih (fun token inTokens => free token (List.mem_cons_of_mem _ inTokens)) inRest

end Spaced

end Offside
