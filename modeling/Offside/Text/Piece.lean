import Offside.Text.Recognizer

/-!
# Cutting a text into gaps and hits

A recogniser is tried at each position from left to right, and a hit is not entered again.
A construct that holds no character counts as a hit, also at the end of the text, unless it
stands directly behind the previous hit; the character behind it then belongs to the gap.
The walk goes character by character, so it is a structural recursion, and the pieces of a
text always concatenate to it.
-/

namespace Offside

/-- A part of a text: a character of a gap, or a hit with what was recognised in it. -/
inductive Piece (α : Type) where
  | gap (char : Char)
  | hit (matched : Text) (value : α)
  deriving Repr, DecidableEq

namespace Piece

variable {α : Type}

/-- The part of the text that a piece stands for. -/
def source : Piece α → Text
  | gap char => [char]
  | hit matched _ => matched

/-- The piece with hits replaced. -/
def replaced (replacement : α → Text) : Piece α → Text
  | gap char => [char]
  | hit _ value => replacement value

/-- The hit of a piece, if it is one. -/
def hit? : Piece α → Option (Text × α)
  | gap _ => none
  | hit matched value => some (matched, value)

end Piece

/-- Where the walk stands: between hits, or with so many characters of the last hit still
ahead. `within 0` is the position directly behind a hit. -/
inductive Stance where
  | free
  | within (ahead : Nat)
  deriving Repr, DecidableEq

/-- Number of characters of the last hit that are still ahead. -/
def Stance.ahead : Stance → Nat
  | free => 0
  | within ahead => ahead

@[simp] theorem Stance.ahead_free : free.ahead = 0 := rfl

@[simp] theorem Stance.ahead_within (ahead : Nat) : (within ahead).ahead = ahead := rfl

private theorem Stance.ahead_eq_zero {stance : Stance}
    (outside : ∀ ahead, stance ≠ within (ahead + 1)) : stance.ahead = 0 := by
  match stance with
  | free => rfl
  | within 0 => rfl
  | within (ahead + 1) => exact absurd rfl (outside ahead)

namespace Recognizer

variable {α : Type}

/-- The pieces of a text from a position on. -/
def piecesFrom (recognizer : Recognizer α) :
    Stance → (before : Option Char) → Text → List (Piece α)
  | .free, before, [] =>
      match recognizer.at? before [] with
      | some (value, _) => [.hit [] value]
      | none => []
  | .within _, _, [] => []
  | .within (ahead + 1), _, char :: rest =>
      recognizer.piecesFrom (.within ahead) (some char) rest
  | stance, before, char :: rest =>
      match recognizer.at? before (char :: rest) with
      | none => .gap char :: recognizer.piecesFrom .free (some char) rest
      | some (value, left) =>
          match (char :: rest).length - left.length with
          | 0 =>
              (if stance = .free then [.hit [] value] else []) ++
                .gap char :: recognizer.piecesFrom .free (some char) rest
          | size + 1 =>
              .hit ((char :: rest).take (size + 1)) value ::
                recognizer.piecesFrom (.within size) (some char) rest

/-- The pieces of a text. -/
def pieces (recognizer : Recognizer α) (text : Text) : List (Piece α) :=
  recognizer.piecesFrom .free none text

/-- The hits of a recogniser in a text, from left to right. -/
def hits (recognizer : Recognizer α) (text : Text) : List (Text × α) :=
  (recognizer.pieces text).filterMap Piece.hit?

/-- Put a text in the place of every hit. -/
def replaceAll (recognizer : Recognizer α) (replacement : α → Text) (text : Text) : Text :=
  (recognizer.pieces text).flatMap (Piece.replaced replacement)

/-- The pieces from a position on concatenate to what the last hit has left over. -/
theorem flatMap_source_piecesFrom (recognizer : Recognizer α) (stance : Stance)
    (before : Option Char) (text : Text) :
    (recognizer.piecesFrom stance before text).flatMap Piece.source =
      text.drop stance.ahead := by
  fun_induction piecesFrom recognizer stance before text with
  | case1 | case2 | case3 | case4 => simp_all [Piece.source]
  | case5 _ _ _ _ outside _ ih =>
      simp [Piece.source, ih, Stance.ahead_eq_zero outside]
  | case6 stance _ _ _ outside _ _ _ _ ih =>
      have behind := Stance.ahead_eq_zero outside
      by_cases free : stance = .free <;> simp [Piece.source, ih, behind, free]
  | case7 _ _ _ _ outside _ _ _ _ _ ih =>
      simp [Piece.source, ih, Stance.ahead_eq_zero outside]

/-- Nothing is lost and nothing is added by cutting a text into pieces. -/
@[simp] theorem flatMap_source_pieces (recognizer : Recognizer α) (text : Text) :
    (recognizer.pieces text).flatMap Piece.source = text :=
  flatMap_source_piecesFrom recognizer .free none text

end Recognizer

end Offside
