import Offside.Proofs.Builtins
import Offside.Proofs.Program.Layout

/-!
# Translation of small programs

The Python text of a listing is exactly the Python lines of its program, however the listing is
indented and whether the program stands alone or as the entry point of a class.
-/

namespace Offside

/-! ## Lines of Python -/

/-- Behind its indentation there is a phrase that hides no built-in. -/
def IsPythonLine (line : Text) : Prop :=
  ∃ depth, ∃ phrase : Phrase, line = atDepth depth phrase.text ∧
    sparesBuiltins phrase.text = true

theorem sparesBuiltins_congr {left right : Text} (same : letterPairs left = letterPairs right) :
    sparesBuiltins left = sparesBuiltins right := by
  rw [sparesBuiltins, same, sparesBuiltins]

section Line

variable {line : Text} (isPython : IsPythonLine line)

include isPython

theorem IsPythonLine.spares : sparesBuiltins line = true := by
  rcases isPython with ⟨depth, phrase, rfl, spares⟩
  have spaces : IsLetterless (List.replicate (4 * depth) ' ') := by
    intro char member
    rw [List.eq_of_mem_replicate member]
    rfl
  rw [atDepth, sparesBuiltins_congr (spaces.letterPairs_append phrase.text), spares]

theorem IsPythonLine.ne_nil : line ≠ [] := by
  rcases isPython with ⟨depth, phrase, rfl, _⟩
  exact List.append_ne_nil_of_right_ne_nil _ phrase.nonempty

theorem IsPythonLine.endsSolid : EndsSolid line := by
  rcases isPython with ⟨depth, phrase, rfl, _⟩
  exact phrase.endsSolid.append phrase.nonempty

end Line

theorem Statement.isPythonLine (statement : Statement) (depth : Nat) :
    IsPythonLine (atDepth depth statement.python) := by
  refine ⟨depth, statement.phrase.toPhrase, rfl, ?_⟩
  rw [statement.text_phrase, sparesBuiltins_congr statement.letterPairs_python]
  rcases statement with _ | _ | _ | ⟨⟨⟩, _⟩ <;> rfl

theorem Counting.isPythonLine (counting : Counting) (depth : Nat) :
    IsPythonLine (atDepth depth counting.python) := by
  have apart : endsOtherwise counting.python = true := by
    rw [endsOtherwise, counting.getLast?_python]
    rfl
  have noPair : letterPairs (braceTail true) = [] := by decide
  have pairs := counting.letterPairs_python
  rw [letterPairs_append apart, noPair, List.append_nil] at pairs
  refine ⟨depth, counting.phrase.toPhrase, rfl, ?_⟩
  rw [counting.text_phrase, sparesBuiltins_congr pairs]
  rfl

namespace Condition

variable (condition : Condition) (depth : Nat)

theorem isPythonLine_branch : IsPythonLine (atDepth depth (Item.branch condition).target) := by
  refine ⟨depth, condition.headerPhrase.toPhrase, rfl, ?_⟩
  rw [condition.text_headerPhrase,
    sparesBuiltins_congr (Item.letterPairs_target (.branch condition))]
  rfl

theorem isPythonLine_elseBranch :
    IsPythonLine (atDepth depth (Item.elseBranch condition).target) := by
  rw [← condition.elifText_phrase]
  refine ⟨depth, .elif condition.phrase, rfl, ?_⟩
  have same : (Phrase.elif condition.phrase).text = (Item.elseBranch condition).target :=
    condition.elifText_phrase
  rw [same, sparesBuiltins_congr (Item.letterPairs_target (.elseBranch condition))]
  rfl

end Condition

theorem isPythonLine_otherwise (depth : Nat) :
    IsPythonLine (atDepth depth Item.otherwise.target) :=
  ⟨depth, .otherwise, rfl, rfl⟩

mutual

theorem Program.isPythonLine_of_mem (program : Program) {depth : Nat} {line : Text}
    (member : line ∈ program.python depth) : IsPythonLine line := by
  cases program with
  | done => cases member
  | simple statement rest =>
      rcases List.mem_cons.1 member with rfl | inRest
      · exact statement.isPythonLine depth
      · exact rest.isPythonLine_of_mem inRest
  | loop counting body rest =>
      rcases List.mem_cons.1 member with rfl | member
      · exact counting.isPythonLine depth
      · rcases List.mem_append.1 member with inBody | inRest
        · exact body.isPythonLine_of_mem inBody
        · exact rest.isPythonLine_of_mem inRest
  | branch condition body alternative rest =>
      rcases List.mem_cons.1 member with rfl | member
      · exact condition.isPythonLine_branch depth
      · rcases List.mem_append.1 member with inBody | member
        · exact body.isPythonLine_of_mem inBody
        · rcases List.mem_append.1 member with inAlternative | inRest
          · exact alternative.isPythonLine_of_mem inAlternative
          · exact rest.isPythonLine_of_mem inRest

theorem Alternative.isPythonLine_of_mem (alternative : Alternative) {depth : Nat} {line : Text}
    (member : line ∈ alternative.python depth) : IsPythonLine line := by
  cases alternative with
  | close => cases member
  | elseBranch condition body alternative =>
      rcases List.mem_cons.1 member with rfl | member
      · exact condition.isPythonLine_elseBranch depth
      · rcases List.mem_append.1 member with inBody | inAlternative
        · exact body.isPythonLine_of_mem inBody
        · exact alternative.isPythonLine_of_mem inAlternative
  | otherwise body =>
      rcases List.mem_cons.1 member with rfl | inBody
      · exact isPythonLine_otherwise depth
      · exact body.isPythonLine_of_mem inBody

end

/-! ## Blank lines around the program -/

theorem Phrase.startsSolid_unlines (phrase : Phrase) (rest : List Text) :
    StartsSolid (unlines (atDepth 0 phrase.text :: rest)) :=
  Offside.startsSolid_unlines phrase.nonempty phrase.startsSolid rest

theorem Program.startsSolid_python (program : Program) :
    StartsSolid (unlines (program.python 0)) := by
  cases program with
  | done => exact startsSolid_nil
  | simple statement rest => exact statement.phrase.startsSolid_unlines _
  | loop counting body rest => exact counting.phrase.startsSolid_unlines _
  | branch condition body alternative rest => exact condition.headerPhrase.startsSolid_unlines _

theorem Program.endsSolid_python (program : Program) :
    EndsSolid (unlines (program.python 0)) := by
  rcases List.eq_nil_or_concat (program.python 0) with empty | ⟨start, last, shape⟩
  · rw [empty]
    exact endsSolid_nil
  · rw [List.concat_eq_append] at shape
    have member : last ∈ program.python 0 := by
      rw [shape]
      exact List.mem_append_right start List.mem_cons_self
    have isPython := program.isPythonLine_of_mem member
    rw [shape]
    exact endsSolid_unlines isPython.ne_nil isPython.endsSolid start

/-- Trimming takes away the blank lines around a program. -/
theorem Program.trim_python (program : Program) {front back : List Text}
    (frontBlank : ∀ text ∈ front, AllBlank text) (backBlank : ∀ text ∈ back, AllBlank text) :
    trim (unlines (front ++ program.python 0 ++ back)) = unlines (program.python 0) := by
  by_cases empty : program.python 0 = []
  · rw [empty, List.append_nil]
    apply trim_unlines_of_blank
    intro text member
    rcases List.mem_append.1 member with inFront | inBack
    · exact frontBlank text inFront
    · exact backBlank text inBack
  · exact trim_unlines frontBlank backBlank empty program.startsSolid_python
      program.endsSolid_python

/-! ## Listings -/

/-- The text of a listing, with a newline behind its last line or not. -/
def listingText (terminated : Bool) (lines : List Text) : Text :=
  unlines (if terminated then lines ++ [[]] else lines)

/-- An empty line. -/
def PlacedItem.blankLine : PlacedItem where
  indent := []
  isGap := isGap_nil
  item := .blank

namespace PlacedItem

/-- The text of a listing is that of placed items, with an empty line behind the others if the
text ends in a newline or is empty. -/
theorem exists_listingAt {lines : List Text} {items : List Item}
    (indentation : IndentedLines isTabOrSpace lines (items.map Item.source)) (terminated : Bool) :
    ∃ (listing : List PlacedItem) (count : Nat), listing ≠ [] ∧
      listing.map item = items ++ List.replicate count .blank ∧
      listingAt 0 listing = listingText terminated lines := by
  rcases exists_of_indentedLines indentation with ⟨listing, rfl, rfl⟩
  cases terminated with
  | true =>
      refine ⟨listing ++ [blankLine], 1, List.concat_ne_nil _ _, ?_, ?_⟩
      · exact List.map_append
      · rw [listingAt, List.map_append]
        rfl
  | false =>
      -- The empty text has one line, which is empty.
      cases listing with
      | nil => exact ⟨[blankLine], 1, List.cons_ne_nil _ _, rfl, rfl⟩
      | cons placed others =>
          exact ⟨placed :: others, 0, List.cons_ne_nil _ _, (List.append_nil _).symm, rfl⟩

theorem indentedLines (listing : List PlacedItem) :
    IndentedLines isBlank (listing.map (lineAt 6))
      (listing.map fun placed => placed.item.target) := by
  induction listing with
  | nil => exact .nil
  | cons placed others ih =>
      rw [List.map_cons, List.map_cons, placed.lineAt_six]
      exact .cons placed.indent placed.item.target placed.isGap.allBlank ih

end PlacedItem

theorem Layout.Sets.blank (count : Nat) (margin : Margin) :
    Layout.Sets margin (List.replicate count []) (List.replicate count []) margin := by
  have shaped : LineShape.ofLine [] = .blank := rfl
  induction count with
  | zero => exact .nil
  | succ count ih => exact .cons shaped rfl rfl ih

/-- The layout pass sets the program between blank lines, and has nothing to remark. -/
theorem Program.convertLayout_listingAt (program : Program) (wrapped : Bool)
    {listing : List PlacedItem} {count : Nat} (nonempty : listing ≠ [])
    (items : listing.map PlacedItem.item =
      program.listing wrapped ++ List.replicate count .blank) :
    convertLayout (PlacedItem.listingAt 6 listing) =
      { text := unlines (wrapperLines wrapped ++ program.python 0 ++ List.replicate count []),
        remarks := [] } := by
  have targets : (listing.map fun placed => placed.item.target) =
      (program.listing wrapped).map Item.target ++ List.replicate count [] :=
    calc (listing.map fun placed => placed.item.target)
      _ = (listing.map PlacedItem.item).map Item.target := by rw [List.map_map]; rfl
      _ = (program.listing wrapped ++ List.replicate count Item.blank).map Item.target := by
          rw [items]
      _ = (program.listing wrapped).map Item.target ++ List.replicate count [] := by
          rw [List.map_append, List.map_replicate]
          rfl
  have indentation := PlacedItem.indentedLines listing
  rw [targets] at indentation
  have sets := (program.sets_listing wrapped).append (Layout.Sets.blank count {})
  rw [convertLayout, PlacedItem.lines_listingAt 6 nonempty, sets.ofLines_eq indentation]

theorem Program.spares_python (program : Program) (wrapped : Bool) (count : Nat) :
    sparesBuiltins (unlines (wrapperLines wrapped ++ program.python 0 ++
      List.replicate count [])) = true := by
  apply sparesBuiltins_unlines
  intro line member
  rcases List.mem_append.1 member with member | inBack
  · rcases List.mem_append.1 member with inFront | inProgram
    · rw [eq_nil_of_mem_wrapperLines inFront]
      rfl
    · exact (program.isPythonLine_of_mem inProgram).spares
  · rw [List.eq_of_mem_replicate inBack]
    rfl

theorem Program.trim_listing (program : Program) (wrapped : Bool) (count : Nat) :
    trim (unlines (wrapperLines wrapped ++ program.python 0 ++ List.replicate count [])) =
      unlines (program.python 0) := by
  apply program.trim_python
  · intro line member
    rw [eq_nil_of_mem_wrapperLines member]
    exact allBlank_nil
  · intro line member
    rw [List.eq_of_mem_replicate member]
    exact allBlank_nil

/-- The Python text of the listing of a program is the Python lines of the program, and there is
nothing to remark. -/
theorem Program.toPython_listing (program : Program) (wrapped terminated : Bool)
    {lines : List Text}
    (indentation : IndentedLines isTabOrSpace lines
      ((program.listing wrapped).map Item.source)) :
    toPython (String.ofList (listingText terminated lines)) =
        String.ofList (unlines (program.python 0)) ∧
      (Rendition.ofSnippet (listingText terminated lines)).remarks = [] := by
  rcases PlacedItem.exists_listingAt indentation terminated with
    ⟨listing, count, nonempty, items, text⟩
  have respelled := PlacedItem.respelled_listingAt nonempty
  have layout := program.convertLayout_listingAt wrapped nonempty items
  rw [← text]
  constructor
  · rw [toPython, String.toList_ofList, Rendition.text_ofSnippet, respelled, layout,
      convertNames_eq_self (program.spares_python wrapped count), program.trim_listing]
  · rw [Rendition.remarks_ofSnippet, respelled, layout, PlacedItem.looped_listingAt,
      PlacedItem.convertBranches_listingAt, (PlacedItem.convertPrints_listingAt listing).2,
      (PlacedItem.convertReads_listingAt listing).1, (PlacedItem.convertReads_listingAt listing).2,
      (PlacedItem.convertLoops_listingAt listing).2]
    rfl

/-- A variable of the sample. -/
def Name.single (letter : Char) (lower : letter.isLower = true) : Name where
  letter
  digits := []
  lower
  inside _ member := nomatch member

/-- A number of the sample. -/
def Atom.digit (digit : Char) (isDigit : digit.isDigit = true) : Atom :=
  .numeral ⟨[digit], List.cons_ne_nil _ _, fun _ member => List.mem_singleton.1 member ▸ isDigit⟩

/-- A loop with a branch chain in it, which has a loop that counts down in one of its parts. -/
def Program.sample : Program :=
  let s := Name.single 's' rfl
  let i := Name.single 'i' rfl
  let j := Name.single 'j' rfl
  .simple (.declare s)
    (.loop ⟨i, .digit '0' rfl, .atMost, .name ⟨'n', ['1'], rfl, by decide⟩⟩
      (.branch ⟨.name i, .equal, .digit '3' rfl⟩
        (.simple (.output .newline ⟨.name s, [.name i]⟩) .done)
        (.elseBranch ⟨.name i, .ordered .atLeast, .digit '7' rfl⟩
          (.loop ⟨j, .name i, .above, .digit '0' rfl⟩
            (.simple (.assign s ⟨.name s, [(.plus, .name i), (.times, .name j)]⟩) .done)
            .done)
          (.otherwise (.simple (.output .nothing ⟨.name i, []⟩) .done)))
        .done)
      (.simple (.define ⟨'t', ['2'], rfl, by decide⟩ ⟨.name s, [(.minus, .digit '1' rfl)]⟩)
        .done))

/-- The lines of the sample in a class, behind some indentation. -/
def Program.sampleLines : List Text :=
  ["public class Main \x7b".toList,
    "\tpublic static void main(String[] args) \x7b".toList,
    "  int s;".toList,
    "\tfor (int i = 0; i <= n1; i++) \x7b".toList,
    "if (i == 3) \x7b".toList,
    "   System.out.println(s + i);".toList,
    "\x7d else if (i >= 7) \x7b".toList,
    "\t \tfor (int j = i; j > 0; j--) \x7b".toList,
    "s = s + i * j;".toList,
    "\x7d".toList,
    " \x7d else \x7b".toList,
    "System.out.print(i);".toList,
    "\x7d".toList,
    "\x7d".toList,
    "\t\tint t2 = s - 1;".toList,
    "\x7d".toList,
    "\x7d".toList]

theorem Program.toPython_listing_sample :
    IndentedLines isTabOrSpace Program.sampleLines
      ((Program.sample.listing true).map Item.source) ∧
    toPython (String.ofList (listingText true Program.sampleLines)) =
      String.ofList (unlines ["s = None".toList,
        "for i in range(0, n1 + 1):".toList,
        "    if i == 3:".toList,
        "        print(s, i)".toList,
        "    elif i >= 7:".toList,
        "        for j in range(i, 0, -1):".toList,
        "            s = s + i * j".toList,
        "    else:".toList,
        "        print(i, end='')".toList,
        "t2 = s - 1".toList]) ∧
    (Rendition.ofSnippet (listingText true Program.sampleLines)).remarks = [] := by
  have indentation : IndentedLines isTabOrSpace Program.sampleLines
      ((Program.sample.listing true).map Item.source) :=
    .cons [] _ (by decide) <| .cons "\t".toList _ (by decide) <|
    .cons "  ".toList _ (by decide) <| .cons "\t".toList _ (by decide) <|
    .cons [] _ (by decide) <| .cons "   ".toList _ (by decide) <| .cons [] _ (by decide) <|
    .cons "\t \t".toList _ (by decide) <| .cons [] _ (by decide) <| .cons [] _ (by decide) <|
    .cons " ".toList _ (by decide) <| .cons [] _ (by decide) <| .cons [] _ (by decide) <|
    .cons [] _ (by decide) <| .cons "\t\t".toList _ (by decide) <| .cons [] _ (by decide) <|
    .cons [] _ (by decide) .nil
  exact ⟨indentation, Program.toPython_listing Program.sample true true indentation⟩

end Offside
