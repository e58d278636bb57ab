import Offside.Draft
import Offside.Proofs.Text.Lines

/-!
# Splicing

What a recogniser makes of a text can be derived from left to right: a character at which
nothing is recognised stays, and a construct gives way to what its verdict puts in its place.
`Recognizer.Settles` is that derivation. It looks at one stretch of a text at a time, with the
rest of the text in sight, so that stretches compose and a pass can be followed line by line.
-/

namespace Offside

/-- The character in front of a position, after a text has been passed. -/
def passed : (before : Option Char) → Text → Option Char
  | before, [] => before
  | _, char :: text => passed (some char) text

@[simp] theorem passed_nil (before : Option Char) : passed before [] = before := rfl

@[simp] theorem passed_cons (before : Option Char) (char : Char) (text : Text) :
    passed before (char :: text) = passed (some char) text := rfl

@[simp] theorem passed_append (before : Option Char) (left right : Text) :
    passed before (left ++ right) = passed (passed before left) right := by
  induction left generalizing before with
  | nil => rfl
  | cons char left ih => exact ih (some char)

theorem passed_eq (before : Option Char) (text : Text) :
    passed before text = text.getLast?.or before := by
  induction text generalizing before with
  | nil => rfl
  | cons char text ih => cases last : text.getLast? <;> simp [ih, List.getLast?_cons, last]

namespace Recognizer

variable {α : Type} {recognizer : Recognizer α}

/-- Every construct takes at least one character off the front of the text. -/
def Proper (recognizer : Recognizer α) : Prop :=
  ∀ before text value rest, recognizer.at? before text = some (value, rest) →
    ∃ matched, matched ≠ [] ∧ text = matched ++ rest

/-- Nothing is recognised where a blank stands. -/
def StartsVisibly (recognizer : Recognizer α) : Prop :=
  ∀ before char rest, isBlank char = true → recognizer.at? before (char :: rest) = none

/-! ## Pieces of a proper recogniser -/

theorem Proper.at?_nil (proper : recognizer.Proper) (before : Option Char) :
    recognizer.at? before [] = none := by
  cases found : recognizer.at? before [] with
  | none => rfl
  | some result =>
      obtain ⟨matched, nonempty, split⟩ := proper before [] result.1 result.2 found
      exact absurd (List.append_eq_nil_iff.1 split.symm).1 nonempty

theorem Proper.piecesFrom_nil (proper : recognizer.Proper) (before : Option Char) :
    recognizer.piecesFrom .free before [] = [] := by
  rw [piecesFrom, proper.at?_nil]

theorem piecesFrom_of_at?_eq_none {before : Option Char} {char : Char} {text : Text}
    (missing : recognizer.at? before (char :: text) = none) :
    recognizer.piecesFrom .free before (char :: text) =
      .gap char :: recognizer.piecesFrom .free (some char) text := by
  simp [piecesFrom, missing]

theorem piecesFrom_within_append (matched rest : Text) (before : Option Char) :
    recognizer.piecesFrom (.within matched.length) before (matched ++ rest) =
      recognizer.piecesFrom (.within 0) (passed before matched) rest := by
  induction matched generalizing before with
  | nil => rfl
  | cons char matched ih => exact ih (some char)

/-- Directly behind a hit a proper recogniser goes on as anywhere else. -/
theorem Proper.piecesFrom_within_zero (proper : recognizer.Proper) (before : Option Char)
    (text : Text) :
    recognizer.piecesFrom (.within 0) before text = recognizer.piecesFrom .free before text := by
  cases text with
  | nil => rw [proper.piecesFrom_nil, piecesFrom]
  | cons char text =>
      cases found : recognizer.at? before (char :: text) with
      | none => simp [piecesFrom, found]
      | some result =>
          obtain ⟨matched, nonempty, split⟩ := proper _ _ _ _ found
          have longer : (char :: text).length = matched.length + result.2.length := by
            rw [split, List.length_append]
          have taken : 0 < matched.length := List.length_pos_iff.2 nonempty
          obtain ⟨size, count⟩ : ∃ size,
              (char :: text).length - result.2.length = size + 1 :=
            ⟨matched.length - 1, by omega⟩
          simp only [piecesFrom, found, count]

theorem Proper.piecesFrom_of_at?_eq_some (proper : recognizer.Proper) {before : Option Char}
    {matched rest : Text} {value : α} (nonempty : matched ≠ [])
    (found : recognizer.at? before (matched ++ rest) = some (value, rest)) :
    recognizer.piecesFrom .free before (matched ++ rest) =
      .hit matched value :: recognizer.piecesFrom .free (passed before matched) rest := by
  cases matched with
  | nil => exact absurd rfl nonempty
  | cons char matched =>
      have count : (char :: (matched ++ rest)).length - rest.length = matched.length + 1 := by
        simp only [List.length_cons, List.length_append]
        omega
      rw [List.cons_append] at found ⊢
      simp only [piecesFrom, found, count]
      rw [piecesFrom_within_append, proper.piecesFrom_within_zero]
      simp

/-! ## Settling a stretch of text -/

/-- With `rest` behind it, a stretch of text turns into another one, and every verdict on the
way is a plain replacement. -/
inductive Settles (recognizer : Recognizer α) (judge : α → Verdict) (rest : Text) :
    (before : Option Char) → (text outcome : Text) → Prop where
  | nil {before : Option Char} : Settles recognizer judge rest before [] []
  | gap {before : Option Char} {char : Char} {text outcome : Text} :
      recognizer.at? before (char :: (text ++ rest)) = none →
      Settles recognizer judge rest (some char) text outcome →
      Settles recognizer judge rest before (char :: text) (char :: outcome)
  | hit {before : Option Char} {matched text replacement outcome : Text} {value : α} :
      matched ≠ [] →
      recognizer.at? before (matched ++ (text ++ rest)) = some (value, text ++ rest) →
      judge value = .replace replacement →
      Settles recognizer judge rest (passed before matched) text outcome →
      Settles recognizer judge rest before (matched ++ text) (replacement ++ outcome)

namespace Settles

variable {judge : α → Verdict} {before : Option Char} {text outcome : Text}

theorem append {left right leftOutcome rightOutcome rest : Text}
    (leftSettles : recognizer.Settles judge (right ++ rest) before left leftOutcome)
    (rightSettles : recognizer.Settles judge rest (passed before left) right rightOutcome) :
    recognizer.Settles judge rest before (left ++ right) (leftOutcome ++ rightOutcome) := by
  induction leftSettles with
  | nil => exact rightSettles
  | gap missing _ ih =>
      rw [List.cons_append, List.cons_append]
      refine .gap ?_ (ih rightSettles)
      rwa [List.append_assoc]
  | hit nonempty found replaced _ ih =>
      rw [passed_append] at rightSettles
      rw [List.append_assoc, List.append_assoc]
      refine .hit nonempty ?_ replaced (ih rightSettles)
      rwa [List.append_assoc]

/-- A construct at the front of a stretch. -/
theorem cons_hit {matched replacement rest : Text} {value : α} (nonempty : matched ≠ [])
    (found : recognizer.at? before (matched ++ rest) = some (value, rest))
    (replaced : judge value = .replace replacement) :
    recognizer.Settles judge rest before matched replacement := by
  have settles : recognizer.Settles judge rest before (matched ++ []) (replacement ++ []) :=
    .hit nonempty found replaced .nil
  rwa [List.append_nil, List.append_nil] at settles

/-- Blanks stay where they are. -/
theorem of_blank (visible : recognizer.StartsVisibly) {blanks : Text} (blank : AllBlank blanks)
    (rest : Text) : recognizer.Settles judge rest before blanks blanks := by
  induction blanks generalizing before with
  | nil => exact .nil
  | cons char blanks ih =>
      refine .gap (visible before char _ (blank char List.mem_cons_self)) ?_
      exact ih fun other member => blank other (List.mem_cons_of_mem _ member)

/-- A settled text is the outcome of the edit, and there is nothing to remark. -/
theorem editPieces (proper : recognizer.Proper) (origin : String)
    (settles : recognizer.Settles judge [] before text outcome) (index line : Nat) :
    (editPieces origin (fun _ _ value => judge value) index line
      (recognizer.piecesFrom .free before text)).text = outcome ∧
    (Offside.editPieces origin (fun _ _ value => judge value) index line
      (recognizer.piecesFrom .free before text)).remarks = [] := by
  induction settles generalizing index line with
  | nil =>
      rw [proper.piecesFrom_nil]
      exact ⟨rfl, rfl⟩
  | gap missing _ ih =>
      rw [List.append_nil] at missing
      rw [piecesFrom_of_at?_eq_none missing]
      obtain ⟨textEq, remarksEq⟩ := ih index (line + newlines _)
      exact ⟨congrArg _ textEq, remarksEq⟩
  | hit nonempty found replaced _ ih =>
      rw [List.append_nil] at found
      rw [proper.piecesFrom_of_at?_eq_some nonempty found]
      simp [Offside.editPieces, replaced, Verdict.outcome, Verdict.reason?, ih]

theorem edit (proper : recognizer.Proper) (origin : String)
    (settles : recognizer.Settles judge [] none text outcome) :
    (recognizer.edit origin (fun _ _ value => judge value) text).text = outcome ∧
    (recognizer.edit origin (fun _ _ value => judge value) text).remarks = [] :=
  settles.editPieces proper origin 0 1

/-- A settled text is the outcome of replacing every construct. -/
theorem flatMap_replaced (proper : recognizer.Proper) {replacement : α → Text}
    (settles : recognizer.Settles (fun value => .replace (replacement value)) [] before text
      outcome) :
    (recognizer.piecesFrom .free before text).flatMap (Piece.replaced replacement) =
      outcome := by
  generalize judged : (fun value => Verdict.replace (replacement value)) = judge at settles
  induction settles with
  | nil =>
      rw [proper.piecesFrom_nil]
      rfl
  | gap missing _ ih =>
      rw [List.append_nil] at missing
      rw [piecesFrom_of_at?_eq_none missing, List.flatMap_cons, ih]
      rfl
  | hit nonempty found replaced _ ih =>
      rw [List.append_nil] at found
      rw [proper.piecesFrom_of_at?_eq_some nonempty found, List.flatMap_cons, ih]
      rw [← judged, Verdict.replace.injEq] at replaced
      rw [← replaced]
      rfl

theorem replaceAll (proper : recognizer.Proper) {replacement : α → Text}
    (settles : recognizer.Settles (fun value => .replace (replacement value)) [] none text
      outcome) :
    recognizer.replaceAll replacement text = outcome :=
  settles.flatMap_replaced proper

end Settles

end Recognizer

end Offside
