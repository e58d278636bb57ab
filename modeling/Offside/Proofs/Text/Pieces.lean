import Offside.Proofs.Text.Splicing

/-!
# Pieces of a text

What the pieces of a text say about the text that is put together from them. A proper
recogniser finds its pieces one after the other, and `Recognizer.Cuts` is the derivation of
that; without a hit there is nothing to replace and nothing to remark.
-/

namespace Offside

namespace Recognizer

variable {α : Type} {recognizer : Recognizer α}

/-! ## From left to right -/

/-- A text is cut into pieces from left to right. -/
inductive Cuts (recognizer : Recognizer α) :
    (before : Option Char) → Text → List (Piece α) → Prop where
  | nil {before : Option Char} : Cuts recognizer before [] []
  | gap {before : Option Char} {char : Char} {text : Text} {pieces : List (Piece α)} :
      recognizer.at? before (char :: text) = none →
      Cuts recognizer (some char) text pieces →
      Cuts recognizer before (char :: text) (.gap char :: pieces)
  | hit {before : Option Char} {matched rest : Text} {value : α} {pieces : List (Piece α)} :
      matched ≠ [] →
      recognizer.at? before (matched ++ rest) = some (value, rest) →
      Cuts recognizer (passed before matched) rest pieces →
      Cuts recognizer before (matched ++ rest) (.hit matched value :: pieces)

/-- The pieces of a proper recogniser are found in this way. -/
theorem Proper.cuts (proper : recognizer.Proper) (before : Option Char) (text : Text) :
    recognizer.Cuts before text (recognizer.piecesFrom .free before text) := by
  cases text with
  | nil =>
      rw [proper.piecesFrom_nil]
      exact .nil
  | cons char text =>
      cases found : recognizer.at? before (char :: text) with
      | none =>
          rw [piecesFrom_of_at?_eq_none found]
          exact .gap found (proper.cuts (some char) text)
      | some result =>
          obtain ⟨matched, nonempty, split⟩ := proper _ _ _ _ found
          have shorter : result.2.length < (char :: text).length := by
            have taken := List.length_pos_iff.2 nonempty
            rw [split, List.length_append]
            omega
          rw [split] at found ⊢
          rw [proper.piecesFrom_of_at?_eq_some nonempty found]
          exact .hit nonempty found (proper.cuts (passed before matched) result.2)
termination_by text.length
decreasing_by
  · exact Nat.lt_succ_self text.length
  · exact shorter

/-- There is one way only to cut a text. -/
theorem Cuts.piecesFrom_eq (proper : recognizer.Proper) {before : Option Char} {text : Text}
    {pieces : List (Piece α)} (cuts : recognizer.Cuts before text pieces) :
    recognizer.piecesFrom .free before text = pieces := by
  induction cuts with
  | nil => exact proper.piecesFrom_nil _
  | gap missing _ ih => rw [piecesFrom_of_at?_eq_none missing, ih]
  | hit nonempty found _ ih => rw [proper.piecesFrom_of_at?_eq_some nonempty found, ih]

/-- Nothing was recognised where a gap stands. -/
theorem Cuts.exists_of_gap_mem {before : Option Char} {text : Text} {pieces : List (Piece α)}
    (cuts : recognizer.Cuts before text pieces) {char : Char} (member : .gap char ∈ pieces) :
    ∃ here rest, recognizer.at? here (char :: rest) = none := by
  induction cuts with
  | nil => cases member
  | gap missing _ ih =>
      rcases List.mem_cons.1 member with same | later
      · cases same
        exact ⟨_, _, missing⟩
      · exact ih later
  | hit _ _ _ ih =>
      rcases List.mem_cons.1 member with same | later
      · cases same
      · exact ih later

/-- Blanks are gaps. -/
theorem piecesFrom_append_of_blank (visible : recognizer.StartsVisibly) {blanks : Text}
    (blank : AllBlank blanks) (before : Option Char) (text : Text) :
    recognizer.piecesFrom .free before (blanks ++ text) =
      blanks.map .gap ++ recognizer.piecesFrom .free (passed before blanks) text := by
  induction blanks generalizing before with
  | nil => rfl
  | cons char blanks ih =>
      have missing := visible before char (blanks ++ text) (blank char List.mem_cons_self)
      rw [List.cons_append, piecesFrom_of_at?_eq_none missing,
        ih fun other member => blank other (List.mem_cons_of_mem char member)]
      rfl

/-! ## Characters of the pieces -/

theorem mem_of_gap_mem_pieces {text : Text} {char : Char}
    (member : .gap char ∈ recognizer.pieces text) : char ∈ text := by
  rw [← flatMap_source_pieces recognizer text, List.mem_flatMap]
  exact ⟨.gap char, member, List.mem_singleton_self char⟩

/-- What a replacement leaves was in the text, or was put there. -/
theorem mem_of_mem_replaceAll {replacement : α → Text} {text : Text} {char : Char}
    (member : char ∈ recognizer.replaceAll replacement text) :
    char ∈ text ∨ ∃ value, char ∈ replacement value := by
  obtain ⟨piece, inPieces, inPiece⟩ := List.mem_flatMap.1 member
  cases piece with
  | gap other =>
      rw [Piece.replaced, List.mem_singleton] at inPiece
      exact .inl (inPiece ▸ mem_of_gap_mem_pieces inPieces)
  | hit matched value => exact .inr ⟨value, inPiece⟩

/-! ## Texts without hits -/

theorem pieces_eq_gaps_of_hits_eq_nil {text : Text} (silent : recognizer.hits text = []) :
    recognizer.pieces text = text.map .gap := by
  have onlyGaps : ∀ pieces : List (Piece α), pieces.filterMap Piece.hit? = [] →
      pieces = (pieces.flatMap Piece.source).map .gap := by
    intro pieces noHit
    induction pieces with
    | nil => rfl
    | cons piece pieces ih =>
        cases piece with
        | gap char =>
            have others := ih noHit
            rw [List.flatMap_cons, List.map_append, ← others]
            rfl
        | hit matched value => cases noHit
  have whole := onlyGaps _ silent
  rwa [flatMap_source_pieces] at whole

theorem filterMap_hit?_gaps (text : Text) :
    (text.map .gap : List (Piece α)).filterMap Piece.hit? = [] := by
  rw [List.filterMap_map, List.filterMap_eq_nil_iff]
  exact fun _ _ => rfl

theorem flatMap_replaced_gaps (replacement : α → Text) (text : Text) :
    (text.map .gap).flatMap (Piece.replaced replacement) = text := by
  rw [List.flatMap_map]
  exact List.flatMap_singleton' text

/-- A text in which nothing is recognised is left as it is. -/
theorem replaceAll_of_hits_eq_nil {text : Text} (silent : recognizer.hits text = [])
    (replacement : α → Text) : recognizer.replaceAll replacement text = text := by
  rw [replaceAll, pieces_eq_gaps_of_hits_eq_nil silent, flatMap_replaced_gaps]

/-- Gaps stay, and there is nothing to remark on them. -/
theorem editPieces_gaps_append (origin : String) (judge : Nat → Text → α → Verdict) (text : Text)
    (pieces : List (Piece α)) (index line : Nat) :
    editPieces origin judge index line (text.map .gap ++ pieces) =
      let tail := editPieces origin judge index (line + newlines text) pieces
      { tail with text := text ++ tail.text } := by
  induction text generalizing line with
  | nil => rfl
  | cons char text ih =>
      have count : newlines (char :: text) = newlines [char] + newlines text :=
        newlines_append [char] text
      rw [List.map_cons, List.cons_append, editPieces, ih, count, Nat.add_assoc]
      rfl

theorem edit_of_hits_eq_nil {text : Text} (silent : recognizer.hits text = []) (origin : String)
    (judge : Nat → Text → α → Verdict) : recognizer.edit origin judge text = { text } := by
  have gaps := editPieces_gaps_append origin judge text [] 0 1
  rw [List.append_nil] at gaps
  rw [edit, pieces_eq_gaps_of_hits_eq_nil silent, gaps]
  simp [editPieces]

end Recognizer

end Offside
