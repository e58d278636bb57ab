import Offside.Text.WordRanges

/-!
# Words

A word is a maximal run of letters, digits, marks, connectors and joiners.
-/

namespace Offside

/-- Whether a character can be part of a word. -/
def isWordChar (char : Char) : Bool :=
  if char.toNat < 0x80 then char.isAlphanum || char == '_' else wordRanges.covers char

/-- Every ASCII letter or digit is a word character. -/
theorem isWordChar_of_isAlphanum {char : Char} (alphanum : char.isAlphanum = true) :
    isWordChar char = true := by
  have spelled : ((decide ('A'.val ≤ char.val ∧ char.val ≤ 'Z'.val) ||
      (decide ('a'.val ≤ char.val) && decide (char.val ≤ 'z'.val))) ||
      (decide ('0'.val ≤ char.val) && decide (char.val ≤ '9'.val))) = true := alphanum
  have code : char.toNat = char.val.toNat := rfl
  have small : char.toNat < 0x80 := by
    simp [UInt32.le_iff_toNat_le] at spelled
    omega
  simp [isWordChar, small, alphanum]

/-- A word can start behind `before`: the text starts there, or `before` is part of no word. -/
def opensWord (before : Option Char) : Bool :=
  before.all fun char => !isWordChar char

/-- A word can end in front of `rest`. -/
def closesWord (rest : Text) : Bool :=
  opensWord rest.head?

/-- Take a non-empty word from the front of a text. -/
def word? (text : Text) : Option (Text × Text) :=
  match text.takeWhile isWordChar with
  | [] => none
  | word => some (word, text.dropWhile isWordChar)

end Offside
