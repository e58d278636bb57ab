import Offside.Proofs.Branch
import Offside.Proofs.Printing
import Offside.Proofs.Program.Counting
import Offside.Proofs.Program.Stages
import Offside.Proofs.Reading

/-!
# Listings on their way through the passes

A pass that looks for its constructs anywhere in a text converts a listing line by line: the
lines whose turn it is are converted, and nothing is recognised on the others or across lines.
-/

namespace Offside

/-- A line of a listing with its indentation. -/
structure PlacedItem where
  indent : Text
  isGap : IsGap indent
  item : Item

namespace PlacedItem

/-- A line in front of a pass. -/
def lineAt (stage : Nat) (placed : PlacedItem) : Text :=
  placed.indent ++ placed.item.textAt stage

theorem lineAt_six (placed : PlacedItem) :
    placed.lineAt 6 = placed.indent ++ placed.item.target := by
  rw [lineAt, placed.item.textAt_six]

/-- A listing in front of a pass. -/
def listingAt (stage : Nat) (listing : List PlacedItem) : Text :=
  unlines (listing.map (lineAt stage))

/-- Indented lines are placed items. -/
theorem exists_of_indentedLines {lines : List Text} {items : List Item}
    (indentation : IndentedLines isTabOrSpace lines (items.map Item.source)) :
    ∃ listing : List PlacedItem, listing.map item = items ∧ listing.map (lineAt 0) = lines := by
  induction items generalizing lines with
  | nil =>
      cases indentation
      exact ⟨[], rfl, rfl⟩
  | cons item items ih =>
      cases indentation with
      | cons indent _ isGap others =>
          rcases ih others with ⟨listing, itemsEq, linesEq⟩
          refine ⟨⟨indent, isGap, item⟩ :: listing, ?_, ?_⟩
          · rw [List.map_cons, itemsEq]
          · rw [List.map_cons, linesEq, lineAt, item.textAt_zero]

end PlacedItem

/-- A pass that settles every line settles the listing. -/
theorem settles_listing {α : Type} {recognizer : Recognizer α} {judge : α → Verdict} {stage : Nat}
    {listing : List PlacedItem} (Behind : Text → Prop) (visible : recognizer.StartsVisibly)
    (atEnd : Behind [])
    (atLine : ∀ placed ∈ listing, ∀ rest, Behind rest →
      Behind ('\n' :: (placed.lineAt stage ++ rest)))
    (each : ∀ placed ∈ listing, ∀ before rest, opensWord before = true → Behind rest →
      recognizer.Settles judge rest before (placed.item.textAt stage)
        (placed.item.textAt (stage + 1)))
    {before : Option Char} (opens : opensWord before = true) :
    recognizer.Settles judge [] before (PlacedItem.listingAt stage listing)
      (PlacedItem.listingAt (stage + 1) listing) :=
  Recognizer.settles_unlines Behind visible (fun placed _ => placed.isGap.allBlank) atEnd atLine
    each opens

/-- A line whose turn it is not, and which lacks the openings of a construct, is left as it
is. -/
theorem Item.settles_of_lacks {α : Type} {recognizer : Recognizer α} {openings : List Text}
    (opens : recognizer.OpensWith openings) (single : ∀ opening ∈ openings, '\n' ∉ opening)
    {judge : α → Verdict} {stage : Nat} {item : Item} (other : (item.turn == stage) = false)
    (lacking : openings.all (item.lacks stage) = true) {before : Option Char} {rest : Text}
    (closes : ClosesLine rest) :
    recognizer.Settles judge rest before (item.textAt stage) (item.textAt (stage + 1)) := by
  rw [textAt_succ_of_ne (beq_eq_false_iff_ne.1 other)]
  apply opens.settles single _ closes
  intro opening member
  exact not_isInfix_of_lacks (List.all_eq_true.1 lacking opening member)

/-! ## Loops -/

theorem Item.countedLoop_settles (item : Item) {before : Option Char} {rest : Text}
    (opens : opensWord before = true) (closes : ClosesLine rest) :
    countedLoop.Settles LoopClauses.verdict rest before (item.textAt 0) (item.textAt 1) := by
  have silent : (item.turn == 0) = false → ["for".toList].all (item.lacks 0) = true →
      countedLoop.Settles LoopClauses.verdict rest before (item.textAt 0) (item.textAt 1) := by
    intro other lacking
    exact item.settles_of_lacks countedLoop_opensWith (by decide) other lacking closes
  cases item with
  | loop counting =>
      have nonempty : counting.source ≠ [] := List.cons_ne_nil _ _
      have noFor : ∀ opening ∈ ["for".toList], ¬opening <:+: braceTail true := by decide
      apply Recognizer.Settles.append
      · exact .cons_hit nonempty (counting.countedLoop_at?_source opens _)
          counting.verdict_clauses
      · exact countedLoop_opensWith.settles (by decide) noFor closes
  | statement content => rcases content with _ | _ | _ | ⟨⟨⟩, _⟩ <;> exact silent rfl rfl
  | branch | elseBranch | otherwise | close | classHeader | mainHeader | blank =>
      exact silent rfl rfl

/-! ## Branches -/

theorem Condition.newline_notMem (condition : Condition) : '\n' ∉ condition.text :=
  condition.isExpression.notMem (by decide)

theorem Condition.brace_notMem (condition : Condition) : '\x7b' ∉ condition.text :=
  condition.isExpression.notMem (by decide)

theorem allBlank_space : AllBlank [' '] := by decide

theorem Item.elseIfHeader_settles (item : Item) {before : Option Char} {rest : Text}
    (behind : NoElseBehind rest) :
    elseIfHeader.Settles
      (fun condition => .replace ("elif ".toList ++ condition ++ ":".toList)) rest before
      (item.textAt 1) (item.textAt 2) := by
  have silent : (item.turn == 1) = false → elseOpenings.all (item.lacks 1) = true → elseIfHeader.Settles
      (fun condition => .replace ("elif ".toList ++ condition ++ ":".toList)) rest before
      (item.textAt 1) (item.textAt 2) := by
    intro other lacking
    exact item.settles_of_lacks elseIfHeader_opensWith (by decide) other lacking behind.1
  cases item with
  | elseBranch condition =>
      exact Offside.elseIfHeader_settles allBlank_space condition.newline_notMem
        condition.brace_notMem allBlank_space allBlank_space (List.cons_ne_nil ' ' [])
        allBlank_space before
  | otherwise => exact elseIfHeader_settles_else allBlank_space allBlank_space before
  | close => exact elseIfHeader_settles_close behind
  | statement content =>
      rcases content with _ | _ | _ | ⟨⟨⟩, _⟩ <;> exact silent rfl rfl
  | loop | branch | classHeader | mainHeader | blank => exact silent rfl rfl

theorem Item.ifHeader_settles (item : Item) {before : Option Char} {rest : Text}
    (opens : opensWord before = true) (closes : ClosesLine rest) :
    ifHeader.Settles
      (fun condition => .replace ("if ".toList ++ condition ++ ":".toList)) rest before
      (item.textAt 2) (item.textAt 3) := by
  have silent : (item.turn == 2) = false → ["if".toList].all (item.lacks 2) = true → ifHeader.Settles
      (fun condition => .replace ("if ".toList ++ condition ++ ":".toList)) rest before
      (item.textAt 2) (item.textAt 3) := by
    intro other lacking
    exact item.settles_of_lacks ifHeader_opensWith (by decide) other lacking closes
  cases item with
  | branch condition =>
      exact Offside.ifHeader_settles allBlank_space condition.newline_notMem
        condition.brace_notMem allBlank_space opens
  | elseBranch condition =>
      have pairs : letterPairs (' ' :: (condition.text ++ ":".toList)) = [] := by
        rw [letterPairs_cons_of_not_isAlpha (by decide), condition.letterPairs_append (by rfl)]
        rfl
      have absent : ¬"if".toList <:+: ' ' :: (condition.text ++ ":".toList) := by
        apply not_isInfix_of_hasPair 'i' 'f' (by decide)
        rw [hasPair, pairs]
        rfl
      exact ifHeader_settles_elif absent closes before
  | statement content =>
      rcases content with _ | _ | _ | ⟨⟨⟩, _⟩ <;> exact silent rfl rfl
  | loop | otherwise | close | classHeader | mainHeader | blank => exact silent rfl rfl

theorem Item.elseHeader_settles (item : Item) {before : Option Char} {rest : Text}
    (behind : NoElseBehind rest) :
    elseHeader.Settles (fun _ => .replace "else:".toList) rest before (item.textAt 3)
      (item.textAt 4) := by
  have silent : (item.turn == 3) = false → elseOpenings.all (item.lacks 3) = true → elseHeader.Settles
      (fun _ => .replace "else:".toList) rest before (item.textAt 3) (item.textAt 4) := by
    intro other lacking
    exact item.settles_of_lacks elseHeader_opensWith (by decide) other lacking behind.1
  cases item with
  | otherwise => exact Offside.elseHeader_settles allBlank_space allBlank_space before
  | close => exact elseHeader_settles_close behind
  | statement content =>
      rcases content with _ | _ | _ | ⟨⟨⟩, _⟩ <;> exact silent rfl rfl
  | loop | branch | elseBranch | classHeader | mainHeader | blank => exact silent rfl rfl

end Offside
