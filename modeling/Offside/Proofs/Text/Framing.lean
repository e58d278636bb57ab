import Offside.Proofs.Text.Silence

/-!
# A text between two others

Most recognisers know nothing of literals. What they find in a text that stands between a front
and a tail is then what they find in the text alone, as long as nothing starts in the front and
nothing reaches into the tail.
-/

namespace Offside

/-! ## Steps in front of a tail -/

section Steps

variable {mark : Char} {member : Char → Bool} {stop? : Text → Option Text} {tail : Text}

theorem takeWhile_append_cons (outside : member mark = false) (text rest : Text) :
    (text ++ mark :: rest).takeWhile member = text.takeWhile member := by
  induction text with
  | nil => simp [outside]
  | cons char text ih => cases inside : member char <;> simp [inside, ih]

theorem dropWhile_append_cons (outside : member mark = false) (text rest : Text) :
    (text ++ mark :: rest).dropWhile member = text.dropWhile member ++ mark :: rest := by
  induction text with
  | nil => simp [outside]
  | cons char text ih => cases inside : member char <;> simp [inside, ih]

theorem skipSome?_append_cons (outside : member mark = false) (text rest : Text) :
    skipSome? member (text ++ mark :: rest) =
      (skipSome? member text).map (· ++ mark :: rest) := by
  cases text with
  | nil => simp [skipSome?, outside]
  | cons char text =>
      cases inside : member char <;> simp [skipSome?, inside, dropWhile_append_cons outside]

theorem expect?_skipBlanks_append_cons {fixed : Text} (visible : isBlank mark = false)
    (apart : mark ∉ fixed) (text rest : Text) :
    expect? fixed (skipBlanks (text ++ mark :: rest)) =
      (expect? fixed (skipBlanks text)).map (· ++ mark :: rest) := by
  rw [skipBlanks, dropWhile_append_cons visible, expect?_append_cons apart]
  rfl

theorem shortest?_append_tail
    (stops : ∀ text, stop? (text ++ tail) = (stop? text).map (· ++ tail))
    (atEnd : stop? [] = none) (never : shortest? stop? tail = none) (text : Text) :
    shortest? stop? (text ++ tail) =
      (shortest? stop? text).map fun found => (found.1, found.2 ++ tail) := by
  induction text with
  | nil => simp [shortest?, atEnd, never]
  | cons char text ih =>
      have here := stops (char :: text)
      rw [List.cons_append] at here ⊢
      rw [shortest?, shortest?, here, ih]
      cases stop? (char :: text) with
      | some found => rfl
      | none =>
          by_cases newline : char = '\n'
          · simp [newline]
          · cases shortest? stop? text <;> simp [newline]

/-- One step after the other, with and without a tail. -/
theorem map_bind_eq_bind_map {α β γ δ : Type} {first : Option α} {extend : α → β}
    {extendAll : γ → δ} {next : β → Option δ} {alone : α → Option γ}
    (each : ∀ value, next (extend value) = (alone value).map extendAll) :
    (first.map extend).bind next = (first.bind alone).map extendAll := by
  cases first with
  | none => rfl
  | some value => exact each value

end Steps

namespace Recognizer

variable {α : Type} {recognizer : Recognizer α} {front tail : Text}

/-- A stretch that no opening can start in is silent, whatever is behind it. -/
theorem OpensWith.silent_of_apart {openings : List Text} (opens : recognizer.OpensWith openings)
    {stretch : Text} (apart : ∀ opening ∈ openings, Apart stretch opening) {before : Option Char}
    (rest : Text) : recognizer.Silent rest before stretch := by
  induction stretch generalizing before with
  | nil => exact .nil
  | cons char stretch ih =>
      refine .cons ?_ (ih fun opening member => (apart opening member).tail)
      apply opens.at?_eq_none
      intro opening member
      exact (apart opening member).not_append_isPrefix (List.cons_ne_nil char stretch) rest

theorem Silent.cuts {before : Option Char} {stretch : Text}
    (silent : recognizer.Silent [] before stretch) :
    recognizer.Cuts before stretch (stretch.map .gap) := by
  induction silent with
  | nil => exact .nil
  | cons missing _ ih =>
      rw [List.append_nil] at missing
      exact .gap missing ih

/-- Whatever stands between `front` and `tail` is looked at as if it stood alone. -/
structure Frames (recognizer : Recognizer α) (front tail : Text) : Prop where
  proper : recognizer.Proper
  front_silent : ∀ rest, recognizer.Silent rest none front
  fresh : ∀ text, recognizer.at? (passed none front) text = recognizer.at? none text
  stops : ∀ before text, recognizer.at? before (text ++ tail) =
    (recognizer.at? before text).map fun found => (found.1, found.2 ++ tail)
  tail_silent : ∀ before, recognizer.Silent [] before tail

namespace Frames

theorem cuts_append (frames : recognizer.Frames front tail) {before : Option Char} {text : Text}
    {pieces : List (Piece α)} (cuts : recognizer.Cuts before text pieces) :
    recognizer.Cuts before (text ++ tail) (pieces ++ tail.map .gap) := by
  induction cuts with
  | @nil before => exact (frames.tail_silent before).cuts
  | @gap before char text _ missing _ ih =>
      have stillMissing := frames.stops before (char :: text)
      rw [missing] at stillMissing
      exact .gap stillMissing ih
  | hit nonempty found _ ih =>
      rw [List.append_assoc]
      refine .hit nonempty ?_ ih
      rw [← List.append_assoc, frames.stops, found]
      rfl

theorem piecesFrom_fresh (frames : recognizer.Frames front tail) (text : Text) :
    recognizer.piecesFrom .free (passed none front) text = recognizer.pieces text := by
  cases text with
  | nil => rw [pieces, frames.proper.piecesFrom_nil, frames.proper.piecesFrom_nil]
  | cons char text => simp only [pieces, piecesFrom, frames.fresh]

theorem pieces_eq (frames : recognizer.Frames front tail) (text : Text) :
    recognizer.pieces (front ++ (text ++ tail)) =
      front.map .gap ++ (recognizer.pieces text ++ tail.map .gap) := by
  have behind := frames.cuts_append (frames.proper.cuts none text)
  rw [pieces, (frames.front_silent _).piecesFrom_append, frames.piecesFrom_fresh, pieces,
    behind.piecesFrom_eq frames.proper]
  rfl

theorem replaceAll_eq (frames : recognizer.Frames front tail) (replacement : α → Text)
    (text : Text) :
    recognizer.replaceAll replacement (front ++ (text ++ tail)) =
      front ++ (recognizer.replaceAll replacement text ++ tail) := by
  rw [replaceAll, frames.pieces_eq, List.flatMap_append, List.flatMap_append,
    flatMap_replaced_gaps, flatMap_replaced_gaps]
  rfl

theorem hits_eq (frames : recognizer.Frames front tail) (text : Text) :
    recognizer.hits (front ++ (text ++ tail)) = recognizer.hits text := by
  rw [hits, frames.pieces_eq, List.filterMap_append, List.filterMap_append, filterMap_hit?_gaps,
    filterMap_hit?_gaps, List.nil_append, List.append_nil]
  rfl

end Frames

end Recognizer

end Offside
