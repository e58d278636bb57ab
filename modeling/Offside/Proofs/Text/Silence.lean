import Offside.Proofs.Text.Pieces
import Offside.Proofs.Text.Recognition

/-!
# Stretches in which nothing is recognised

A recogniser is silent on a stretch of text if it finds nothing at any position of it, with the
rest of the text in sight. Such a stretch stays as it is, and the walk goes on behind it.
-/

namespace Offside

namespace Recognizer

variable {α : Type} {recognizer : Recognizer α} {rest stretch : Text} {before : Option Char}

/-- With `rest` behind it, nothing is recognised at any position of a stretch of text. -/
inductive Silent (recognizer : Recognizer α) (rest : Text) :
    (before : Option Char) → (stretch : Text) → Prop where
  | nil {before : Option Char} : Silent recognizer rest before []
  | cons {before : Option Char} {char : Char} {stretch : Text} :
      recognizer.at? before (char :: (stretch ++ rest)) = none →
      Silent recognizer rest (some char) stretch →
      Silent recognizer rest before (char :: stretch)

namespace Silent

theorem append {left right : Text} (leftSilent : recognizer.Silent (right ++ rest) before left)
    (rightSilent : recognizer.Silent rest (passed before left) right) :
    recognizer.Silent rest before (left ++ right) := by
  induction leftSilent with
  | nil => exact rightSilent
  | cons missing _ ih =>
      rw [List.cons_append]
      refine .cons ?_ (ih rightSilent)
      rwa [List.append_assoc]

/-- Every position of a stretch splits it in two. -/
theorem of_forall (missing : ∀ front back, stretch = front ++ back → back ≠ [] →
    recognizer.at? (passed before front) (back ++ rest) = none) :
    recognizer.Silent rest before stretch := by
  induction stretch generalizing before with
  | nil => exact .nil
  | cons char stretch ih =>
      refine .cons (missing [] _ rfl (List.cons_ne_nil char stretch)) (ih ?_)
      intro front back split
      exact missing (char :: front) back (congrArg (char :: ·) split)

/-- Nothing is recognised at blanks. -/
theorem of_blank (visible : recognizer.StartsVisibly) {blanks : Text} (blank : AllBlank blanks) :
    recognizer.Silent rest before blanks := by
  induction blanks generalizing before with
  | nil => exact .nil
  | cons char blanks ih =>
      refine .cons (visible before char _ (blank char List.mem_cons_self)) (ih ?_)
      exact fun other member => blank other (List.mem_cons_of_mem char member)

theorem at?_eq_none {front back : Text} (silent : recognizer.Silent rest before (front ++ back))
    (nonempty : back ≠ []) : recognizer.at? (passed before front) (back ++ rest) = none := by
  induction front generalizing before with
  | nil =>
      obtain ⟨char, back, rfl⟩ := List.exists_cons_of_ne_nil nonempty
      cases silent with
      | cons missing _ => exact missing
  | cons char front ih =>
      cases silent with
      | cons _ tail => exact ih tail

theorem settles {judge : α → Verdict} (silent : recognizer.Silent rest before stretch) :
    recognizer.Settles judge rest before stretch stretch := by
  induction silent with
  | nil => exact .nil
  | cons missing _ ih => exact .gap missing ih

theorem piecesFrom_append (silent : recognizer.Silent rest before stretch) :
    recognizer.piecesFrom .free before (stretch ++ rest) =
      stretch.map .gap ++ recognizer.piecesFrom .free (passed before stretch) rest := by
  induction silent with
  | nil => rfl
  | cons missing _ ih =>
      rw [List.cons_append, piecesFrom_of_at?_eq_none missing, ih]
      rfl

theorem exists_replaceAll_append (silent : recognizer.Silent rest none stretch)
    (replacement : α → Text) :
    ∃ behind, recognizer.replaceAll replacement (stretch ++ rest) = stretch ++ behind := by
  rw [replaceAll, pieces, silent.piecesFrom_append, List.flatMap_append, flatMap_replaced_gaps]
  exact ⟨_, rfl⟩

end Silent

/-- A hit was recognised where it stands. -/
theorem Cuts.exists_of_hit_mem {text : Text} {pieces : List (Piece α)}
    (cuts : recognizer.Cuts before text pieces) {matched : Text} {value : α}
    (member : .hit matched value ∈ pieces) :
    ∃ front here left, text = front ++ here ∧
      recognizer.at? (passed before front) here = some (value, left) := by
  induction cuts with
  | nil => cases member
  | @gap before char text pieces _ _ ih =>
      rcases List.mem_cons.1 member with same | later
      · cases same
      · obtain ⟨front, here, left, rfl, found⟩ := ih later
        exact ⟨char :: front, here, left, rfl, found⟩
  | @hit before first rest value pieces _ found _ ih =>
      rcases List.mem_cons.1 member with same | later
      · cases same
        exact ⟨[], matched ++ rest, rest, rfl, found⟩
      · obtain ⟨front, here, left, rfl, foundThere⟩ := ih later
        refine ⟨first ++ front, here, left, (List.append_assoc _ _ _).symm, ?_⟩
        rwa [passed_append]

theorem Cuts.silent {text : Text} {pieces : List (Piece α)}
    (cuts : recognizer.Cuts before text pieces) (noHit : pieces.filterMap Piece.hit? = []) :
    recognizer.Silent [] before text := by
  induction cuts with
  | nil => exact .nil
  | gap missing _ ih =>
      refine .cons ?_ (ih noHit)
      rwa [List.append_nil]
  | hit => cases noHit

/-- A text without hits is silent. -/
theorem Proper.silent (proper : recognizer.Proper) {text : Text}
    (noHit : (recognizer.piecesFrom .free before text).filterMap Piece.hit? = []) :
    recognizer.Silent [] before text :=
  (proper.cuts before text).silent noHit

/-- A stretch without the first characters of the openings is silent, whatever is behind it. -/
theorem OpensWith.silent {openings : List Text} (opens : recognizer.OpensWith openings)
    (missing : ∀ opening ∈ openings, opening.head?.any (fun char => char ∉ stretch) = true) :
    recognizer.Silent rest before stretch := by
  apply Silent.of_forall
  intro front back split nonempty
  apply opens.at?_eq_none
  intro opening member starts
  obtain ⟨char, back, rfl⟩ := List.exists_cons_of_ne_nil nonempty
  have absent := missing opening member
  cases opening with
  | nil => cases absent
  | cons first opening =>
      obtain ⟨rfl, _⟩ := List.cons_prefix_cons.1 starts
      simp [split] at absent

end Recognizer

end Offside
