import Offside.Text.Basic

/-!
# Blanks

The characters with the Unicode property `White_Space`, and the removal of blanks at the
ends of a text. A newline is a blank; a zero-width space is none.
-/

namespace Offside

/-- Code points with the property `White_Space`. -/
def blankRanges : CodeRanges :=
  [(0x09, 0x0D), (0x20, 0x20), (0x85, 0x85), (0xA0, 0xA0), (0x1680, 0x1680),
   (0x2000, 0x200A), (0x2028, 0x2029), (0x202F, 0x202F), (0x205F, 0x205F),
   (0x3000, 0x3000)]

/-- Whether a character is white space. -/
def isBlank (char : Char) : Bool :=
  blankRanges.covers char

/-- Drop the blanks at the start. -/
def skipBlanks (text : Text) : Text :=
  text.dropWhile isBlank

/-- Drop the blanks at the end. -/
def trimEnd (text : Text) : Text :=
  (text.reverse.dropWhile isBlank).reverse

/-- Drop the blanks at both ends. -/
def trim (text : Text) : Text :=
  trimEnd (skipBlanks text)

@[simp] theorem trim_nil : trim [] = [] := rfl

end Offside
