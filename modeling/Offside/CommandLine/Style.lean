import Offside.Text.Piece

/-!
# Styles

Colours and weights of words on a terminal. Painted text ends with a reset; a reset that is
already inside it is followed by the style again, so that the style holds to the end.
-/

namespace Offside.CommandLine

/-- How words are shown. -/
inductive Style where
  | bold
  | dimmed
  | red
  | yellow
  | boldRed
  | boldYellow
  | boldGreen
  deriving Repr, DecidableEq

/-- The control sequence that starts a style. -/
def Style.start : Style → String
  | bold => "\x1b[1m"
  | dimmed => "\x1b[2m"
  | red => "\x1b[31m"
  | yellow => "\x1b[33m"
  | boldRed => "\x1b[1;31m"
  | boldYellow => "\x1b[1;33m"
  | boldGreen => "\x1b[1;32m"

/-- The control sequence that ends every style. -/
def reset : String := "\x1b[0m"

/-- Show words in a style, if colours are wanted. -/
def paint (colour : Bool) (style : Style) (words : String) : String :=
  if colour then
    let inner := (Recognizer.fixed reset.toList).replaceAll
      (fun _ => (reset ++ style.start).toList) words.toList
    style.start ++ String.ofList inner ++ reset
  else
    words

end Offside.CommandLine
