import Offside.Proofs.Program.Output
import Offside.Proofs.Reading
import Offside.Proofs.Sequence

/-!
# Listings behind the passes for constructs

The passes for input, loops, branches and output take a listing from one stage to the next, and
have nothing to remark.
-/

namespace Offside

/-! ## What can stand behind a line -/

theorem Name.startsSolid_append (name : Name) (rest : Text) : StartsSolid (name.text ++ rest) :=
  name.isToken.starts.append name.isToken.nonempty

theorem Statement.startsSolid_source (statement : Statement) : StartsSolid statement.source := by
  rcases statement with _ | _ | ⟨name, _⟩ | ⟨⟨⟩, _⟩
  case assign => exact name.startsSolid_append _
  all_goals exact startsSolid_of_head? rfl (by decide)

theorem Statement.startsSolid_python (statement : Statement) : StartsSolid statement.python := by
  rcases statement with name | ⟨name, _⟩ | ⟨name, _⟩ | ⟨⟨⟩, _⟩
  case output.newline | output.nothing => exact startsSolid_of_head? rfl (by decide)
  all_goals exact name.startsSolid_append _

namespace Item

theorem startsSolid_source (item : Item) : StartsSolid item.source := by
  cases item with
  | statement content => exact content.startsSolid_source
  | blank => exact startsSolid_nil
  | loop | branch | elseBranch | otherwise | close | classHeader | mainHeader =>
      exact startsSolid_of_head? rfl (by decide)

theorem startsSolid_target {item : Item} (converted : item.turn < 5) :
    StartsSolid item.target := by
  cases item with
  | statement content => exact content.startsSolid_python
  | blank => exact startsSolid_nil
  | loop | branch | elseBranch | otherwise | close =>
      exact startsSolid_of_head? rfl (by decide)
  | classHeader | mainHeader => exact absurd converted (Nat.lt_irrefl 5)

theorem startsSolid_textAt {stage : Nat} (early : stage ≤ 5) (item : Item) :
    StartsSolid (item.textAt stage) := by
  rw [textAt]
  split
  · exact item.startsSolid_source
  · next later => exact startsSolid_target (Nat.lt_of_lt_of_le (Nat.lt_of_not_le later) early)

/-- While chains are converted no line starts with `else`: the brace in front of the word is
still there. -/
theorem not_else_isPrefix {stage : Nat} (chains : stage = 1 ∨ stage = 3) (item : Item) :
    ¬"else".toList <+: item.textAt stage := by
  have lacking : item.lacks stage "else".toList = true →
      ¬"else".toList <+: item.textAt stage := by
    intro lacking starts
    exact not_isInfix_of_lacks lacking starts.isInfix
  have closing : (item.textAt stage).head? = some '\x7d' →
      ¬"else".toList <+: item.textAt stage := by
    rintro first ⟨rest, split⟩
    rw [← split] at first
    exact absurd first nofun
  cases item with
  | elseBranch =>
      rcases chains with rfl | rfl
      · exact closing rfl
      · exact lacking rfl
  | otherwise | close => rcases chains with rfl | rfl <;> exact closing rfl
  | statement content =>
      rcases chains with rfl | rfl <;>
        rcases content with _ | _ | _ | ⟨⟨⟩, _⟩ <;> exact lacking rfl
  | loop | branch | classHeader | mainHeader | blank =>
      rcases chains with rfl | rfl <;> exact lacking rfl

end Item

/-- No line of a listing goes on with an `else` from the line above. -/
theorem NoElseBehind.newline {stage : Nat} (chains : stage = 1 ∨ stage = 3)
    (placed : PlacedItem) {rest : Text} (behind : NoElseBehind rest) :
    NoElseBehind ('\n' :: (placed.lineAt stage ++ rest)) := by
  have solid : StartsSolid (placed.item.textAt stage) := by
    apply Item.startsSolid_textAt
    omega
  exact behind.newline_append placed.isGap.allBlank solid (placed.item.not_else_isPrefix chains)

/-! ## Passes -/

namespace PlacedItem

variable (listing : List PlacedItem)

theorem hasPair_listingAt {first second : Char} {stage : Nat}
    (absent : ∀ placed ∈ listing, hasPair first second (placed.item.wordsAt stage) = false) :
    hasPair first second (listingAt stage listing) = false := by
  apply hasPair_unlines
  intro line member
  rcases List.mem_map.1 member with ⟨placed, inListing, rfl⟩
  rw [hasPair, lineAt, placed.isGap.isLetterless.letterPairs_append, ← hasPair,
    Item.hasPair_textAt]
  exact absent placed inListing

/-- No line reads anything. -/
theorem convertReads_listingAt :
    (convertReads (listingAt 0 listing)).text = listingAt 0 listing ∧
      (convertReads (listingAt 0 listing)).remarks = [] := by
  have words : ∀ item : Item, hasPair 'S' 'c' (item.wordsAt 0) = false ∧
      hasPair 'n' 'e' (item.wordsAt 0) = false := by
    intro item
    cases item with
    | statement content => rcases content with _ | _ | _ | ⟨⟨⟩, _⟩ <;> exact ⟨rfl, rfl⟩
    | loop | branch | elseBranch | otherwise | close | classHeader | mainHeader | blank =>
        exact ⟨rfl, rfl⟩
  apply convertReads_eq
  · exact hasPair_listingAt listing fun placed _ => (words placed.item).1
  · exact hasPair_listingAt listing fun placed _ => (words placed.item).2

section Settling

variable {α : Type} {recognizer : Recognizer α} {openings : List Text} {judge : α → Verdict}
  {stage : Nat} (opens : recognizer.OpensWith openings)
  (visible : ∀ opening ∈ openings, opening.head?.any (fun char => !isBlank char) = true)

include opens visible

/-- A pass that relies on the end of the line only. -/
theorem settles_of_closesLine
    (each : ∀ (item : Item) (before : Option Char) (rest : Text), opensWord before = true →
      ClosesLine rest →
        recognizer.Settles judge rest before (item.textAt stage) (item.textAt (stage + 1))) :
    recognizer.Settles judge [] none (listingAt stage listing) (listingAt (stage + 1) listing) := by
  apply settles_listing ClosesLine (opens.startsVisibly visible) closesLine_nil
  · intro placed _ rest _
    exact closesLine_newline _
  · intro placed _
    exact each placed.item
  · rfl

/-- A pass that relies on what the next lines start with. -/
theorem settles_of_noElseBehind (chains : stage = 1 ∨ stage = 3)
    (each : ∀ (item : Item) (before : Option Char) (rest : Text), NoElseBehind rest →
      recognizer.Settles judge rest before (item.textAt stage) (item.textAt (stage + 1))) :
    recognizer.Settles judge [] none (listingAt stage listing) (listingAt (stage + 1) listing) := by
  apply settles_listing NoElseBehind (opens.startsVisibly visible) noElseBehind_nil
  · intro placed _ rest behind
    exact behind.newline chains placed
  · intro placed _ before rest _
    exact each placed.item before rest
  · rfl

end Settling

theorem convertLoops_listingAt :
    (convertLoops (listingAt 0 listing)).text = listingAt 1 listing ∧
      (convertLoops (listingAt 0 listing)).remarks = [] := by
  have settles := settles_of_closesLine listing countedLoop_opensWith (by decide)
    fun item _ _ => item.countedLoop_settles
  exact settles.edit (countedLoop_opensWith.proper (by decide)) Pass.loops.name

theorem looped_listingAt : looped (listingAt 0 listing) = listingAt 1 listing := by
  rw [looped, (convertReads_listingAt listing).1, (convertLoops_listingAt listing).1]

theorem replaceAll_elseIfHeader :
    elseIfHeader.replaceAll (fun condition => "elif ".toList ++ condition ++ ":".toList)
      (listingAt 1 listing) = listingAt 2 listing := by
  have settles := settles_of_noElseBehind listing elseIfHeader_opensWith (by decide) (.inl rfl)
    fun item _ _ => item.elseIfHeader_settles
  exact settles.replaceAll (elseIfHeader_opensWith.proper (by decide))

theorem replaceAll_ifHeader :
    ifHeader.replaceAll (fun condition => "if ".toList ++ condition ++ ":".toList)
      (listingAt 2 listing) = listingAt 3 listing := by
  have settles := settles_of_closesLine listing ifHeader_opensWith (by decide)
    fun item _ _ => item.ifHeader_settles
  exact settles.replaceAll (ifHeader_opensWith.proper (by decide))

theorem replaceAll_elseHeader :
    elseHeader.replaceAll (fun _ => "else:".toList) (listingAt 3 listing) =
      listingAt 4 listing := by
  have settles := settles_of_noElseBehind listing elseHeader_opensWith (by decide) (.inr rfl)
    fun item _ _ => item.elseHeader_settles
  exact settles.replaceAll (elseHeader_opensWith.proper (by decide))

theorem convertBranches_listingAt :
    convertBranches (listingAt 1 listing) = listingAt 4 listing := by
  rw [convertBranches, replaceAll_elseIfHeader, replaceAll_ifHeader, replaceAll_elseHeader]

theorem convertPrints_listingAt :
    (convertPrints (listingAt 4 listing)).text = listingAt 5 listing ∧
      (convertPrints (listingAt 4 listing)).remarks = [] := by
  have settles := settles_of_closesLine listing printStatement_opensWith (by decide)
    fun item _ _ _ => item.printStatement_settles
  exact settles.edit (printStatement_opensWith.proper (by decide)) Pass.printing.name

end PlacedItem

end Offside
