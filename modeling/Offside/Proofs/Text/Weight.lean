import Offside.Proofs.Text.Silence

/-!
# Weights of texts

Characters can be given weights, which add up over a text. If every construct loses weight when
it is replaced, then a text that weighs as much as before has held no construct at all.
-/

namespace Offside

/-- The sum of the weights of the characters of a text. -/
def weigh (weight : Char → Int) : Text → Int
  | [] => 0
  | char :: text => weight char + weigh weight text

section Weigh

variable {weight : Char → Int}

@[simp] theorem weigh_nil : weigh weight [] = 0 := rfl

@[simp] theorem weigh_cons (char : Char) (text : Text) :
    weigh weight (char :: text) = weight char + weigh weight text := rfl

@[simp] theorem weigh_append (left right : Text) :
    weigh weight (left ++ right) = weigh weight left + weigh weight right := by
  induction left with
  | nil => simp
  | cons char left ih => simp [ih, Int.add_assoc]

theorem weigh_eq_zero {text : Text} (light : ∀ char ∈ text, weight char = 0) :
    weigh weight text = 0 := by
  induction text with
  | nil => rfl
  | cons char text ih =>
      rw [weigh_cons, light char List.mem_cons_self,
        ih fun other member => light other (List.mem_cons_of_mem char member)]
      rfl

/-- What is left of a text weighs no more than the text, if nothing weighs less than nothing. -/
theorem weigh_le_of_sublist (nonneg : ∀ char, 0 ≤ weight char) {part text : Text}
    (sublist : part.Sublist text) : weigh weight part ≤ weigh weight text := by
  induction sublist with
  | slnil => exact Int.le_refl 0
  | cons char _ ih =>
      have heavier := nonneg char
      rw [weigh_cons]
      omega
  | cons_cons char _ ih =>
      rw [weigh_cons, weigh_cons]
      omega

/-- Trimming costs nothing where blanks weigh nothing. -/
theorem weigh_trim (blank : ∀ char, isBlank char = true → weight char = 0) (text : Text) :
    weigh weight (trim text) = weigh weight text := by
  obtain ⟨front, back, frontBlank, backBlank, split⟩ := exists_surrounded_trim text
  have frontLight := weigh_eq_zero fun char member => blank char (frontBlank char member)
  have backLight := weigh_eq_zero fun char member => blank char (backBlank char member)
  generalize trim text = core at split
  rw [split, weigh_append, weigh_append, frontLight, backLight]
  omega

end Weigh

namespace Recognizer

variable {α : Type} {recognizer : Recognizer α} {weight : Char → Int} {replacement : α → Text}
  {loss : Nat} {text : Text}

/-- A construct that stands in a text loses so much weight at least when it is replaced. -/
def Sheds (recognizer : Recognizer α) (weight : Char → Int) (replacement : α → Text) (loss : Nat)
    (text : Text) : Prop :=
  ∀ before matched value rest, matched ++ rest <:+ text →
    recognizer.at? before (matched ++ rest) = some (value, rest) →
    weigh weight (replacement value) + loss ≤ weigh weight matched

theorem Cuts.weigh_replaced {before : Option Char} {here : Text} {pieces : List (Piece α)}
    (cuts : recognizer.Cuts before here pieces)
    (sheds : recognizer.Sheds weight replacement loss text) (suffix : here <:+ text) :
    weigh weight (pieces.flatMap (Piece.replaced replacement)) +
      loss * (pieces.filterMap Piece.hit?).length ≤ weigh weight here := by
  induction cuts with
  | nil => simp
  | @gap _ char here pieces _ _ ih =>
      have tail := ih ((List.suffix_cons char here).trans suffix)
      simp only [List.flatMap_cons, Piece.replaced, List.filterMap_cons, Piece.hit?, weigh_append,
        weigh_cons, weigh_nil]
      omega
  | @hit before matched rest value pieces _ found _ ih =>
      have tail := ih ((List.suffix_append matched rest).trans suffix)
      have lighter := sheds before matched value rest suffix found
      simp only [List.flatMap_cons, Piece.replaced, List.filterMap_cons, Piece.hit?, weigh_append,
        List.length_cons]
      have product : (loss : Int) * ((pieces.filterMap Piece.hit?).length + 1) =
          loss * (pieces.filterMap Piece.hit?).length + loss := by
        rw [Int.mul_add, Int.mul_one]
      push_cast
      omega

/-- The weight is lost once for every hit. -/
theorem Sheds.weigh_replaceAll (sheds : recognizer.Sheds weight replacement loss text)
    (proper : recognizer.Proper) :
    weigh weight (recognizer.replaceAll replacement text) +
      loss * (recognizer.hits text).length ≤ weigh weight text :=
  (proper.cuts none text).weigh_replaced sheds List.suffix_rfl

theorem Sheds.weigh_le (sheds : recognizer.Sheds weight replacement loss text)
    (proper : recognizer.Proper) :
    weigh weight (recognizer.replaceAll replacement text) ≤ weigh weight text := by
  have total := sheds.weigh_replaceAll proper
  have lost : 0 ≤ (loss * (recognizer.hits text).length : Int) :=
    Int.mul_nonneg (Int.natCast_nonneg _) (Int.natCast_nonneg _)
  omega

/-- Nothing was found in a text that has lost no weight. -/
theorem Sheds.hits_eq_nil (sheds : recognizer.Sheds weight replacement 1 text)
    (proper : recognizer.Proper)
    (kept : weigh weight text ≤ weigh weight (recognizer.replaceAll replacement text)) :
    recognizer.hits text = [] := by
  have total := sheds.weigh_replaceAll proper
  rw [← List.length_eq_zero_iff]
  omega

end Recognizer

end Offside
