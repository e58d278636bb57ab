import Offside.Text.Basic

/-!
# Decimal numbers

Whole numbers are written without leading zeros. A number is read with an optional sign and
at least one ASCII digit, and only when it fits a signed word of 64 bits.
-/

namespace Offside

namespace Decimal

/-- The decimal digits of a natural number. -/
def ofNat (value : Nat) : Text :=
  Nat.toDigits 10 value

/-- A whole number in decimal digits, with a minus sign when it is negative. -/
def ofInt : Int → Text
  | .ofNat value => ofNat value
  | .negSucc value => '-' :: ofNat (value + 1)

/-- The value of a run of digits, read from the left. -/
def value (digits : Text) : Nat :=
  digits.foldl (fun total digit => 10 * total + (digit.toNat - '0'.toNat)) 0

/-- Read an unsigned number made of ASCII digits only. -/
def nat? (text : Text) : Option Nat :=
  if text ≠ [] ∧ text.all Char.isDigit then some (value text) else none

/-- Read a number with an optional sign, of any size. -/
def int? : Text → Option Int
  | '+' :: digits => (nat? digits).map Int.ofNat
  | '-' :: digits => (nat? digits).map fun value => -Int.ofNat value
  | digits => (nat? digits).map Int.ofNat

/-- The least number of a signed word of 64 bits. -/
def wordMin : Int := -9223372036854775808

/-- The greatest number of a signed word of 64 bits. -/
def wordMax : Int := 9223372036854775807

/-- The numbers that fit a signed word of 64 bits. -/
def fitsWord (value : Int) : Bool :=
  wordMin ≤ value && value ≤ wordMax

/-- Read a number that fits a signed word of 64 bits. -/
def word? (text : Text) : Option Int :=
  (int? text).filter fitsWord

end Decimal

end Offside
