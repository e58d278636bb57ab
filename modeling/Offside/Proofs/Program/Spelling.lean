import Offside.Proofs.Program.Conversion
import Offside.Proofs.Spelling

/-!
# Listings behind the pass for spelling

The last lines to be converted are the statements with a terminator and the headers around the
program. All others are in their final form already, and are not respelled.
-/

namespace Offside

/-- What starts visibly does not start in a gap. -/
theorem IsGap.isInfix_of_isInfix_append {gap opening text : Text} (isGap : IsGap gap)
    (visible : opening.head?.any (fun char => !isBlank char) = true)
    (occurs : opening <:+: gap ++ text) : opening <:+: text := by
  induction gap with
  | nil => exact occurs
  | cons char gap ih =>
      rcases List.infix_cons_iff.1 occurs with starts | later
      · cases opening with
        | nil => cases visible
        | cons first rest =>
            rw [(List.cons_prefix_cons.1 starts).1] at visible
            have blank := isBlank_of_isTabOrSpace (isGap char List.mem_cons_self)
            simp [blank] at visible
      · exact ih (fun other member => isGap other (List.mem_cons_of_mem char member)) later

theorem spellings_visible : ∀ spelling ∈ spellings,
    spelling.1.toList.head?.any (fun char => !isBlank char) = true := by decide

/-- Whether a line lacks the spellings of a table, and the headers that disappear. -/
def Item.lacksSpellings (item : Item) (table : List (String × String)) : Bool :=
  item.lacks 5 "class".toList && item.lacks 5 "static".toList &&
    table.all fun spelling => item.lacks 5 spelling.1.toList

namespace PlacedItem

variable (placed : PlacedItem)

theorem not_isInfix_lineAt {stage : Nat} {text : Text}
    (visible : text.head?.any (fun char => !isBlank char) = true)
    (lacking : placed.item.lacks stage text = true) : ¬text <:+: placed.lineAt stage := by
  intro occurs
  exact Item.not_isInfix_of_lacks lacking (placed.isGap.isInfix_of_isInfix_append visible occurs)

theorem absent_of_lacksSpellings {table : List (String × String)} (listed : table ⊆ spellings)
    (lacking : placed.item.lacksSpellings table = true) :
    ¬"class".toList <:+: placed.lineAt 5 ∧ ¬"static".toList <:+: placed.lineAt 5 ∧
      ∀ spelling ∈ table, ¬spelling.1.toList <:+: placed.lineAt 5 := by
  rw [Item.lacksSpellings, Bool.and_eq_true, Bool.and_eq_true, List.all_eq_true] at lacking
  rcases lacking with ⟨⟨noClass, noMain⟩, noSpelling⟩
  refine ⟨placed.not_isInfix_lineAt rfl noClass, placed.not_isInfix_lineAt rfl noMain, ?_⟩
  intro spelling member
  exact placed.not_isInfix_lineAt (spellings_visible spelling (listed member))
    (noSpelling spelling member)

/-- A line that holds nothing to be respelled is left as it is. -/
theorem respellLine_of_lacks (lacking : placed.item.lacksSpellings spellings = true)
    (undeclared : behindType? (skipModifier "final" (placed.item.textAt 5)) = none) :
    respellLine (placed.lineAt 5) = placed.lineAt 5 := by
  rcases placed.absent_of_lacksSpellings (List.Subset.refl _) lacking with
    ⟨noClass, noMain, noSpelling⟩
  have solid : StartsSolid (placed.item.textAt 5) :=
    placed.item.startsSolid_textAt (Nat.le_refl 5)
  rw [respellLine_of_respell (respell_of_absent noSpelling) noClass noMain]
  apply respellDeclaration_eq_self
  rw [lineAt, dropWhile_append_of_stop placed.isGap solid.isTabOrSpace_eq_false]
  exact undeclared

/-- A statement loses its terminator, and is then read as a declaration. -/
theorem respellLine_terminated {body : Text}
    (terminated : placed.item.textAt 5 = body ++ [';']) (isExpression : IsExpression body)
    (lacking : placed.item.lacksSpellings (spellings.take 6 ++ spellings.drop 7) = true) :
    respellLine (placed.lineAt 5) = respellDeclaration (placed.indent ++ body) := by
  have table : spellings = spellings.take 6 ++ (";", "") :: spellings.drop 7 := rfl
  have listed : spellings.take 6 ++ spellings.drop 7 ⊆ spellings :=
    List.append_subset.2 ⟨List.take_subset 6 _, List.drop_subset 7 _⟩
  rcases placed.absent_of_lacksSpellings listed lacking with ⟨noClass, noMain, noSpelling⟩
  have mark : ";".toList = [';'] := rfl
  have shape : placed.lineAt 5 = (placed.indent ++ body) ++ ([';'] ++ []) := by
    rw [lineAt, terminated, List.append_nil, List.append_assoc]
  have within : placed.indent ++ body <:+: placed.lineAt 5 := by
    rw [shape]
    exact (List.prefix_append _ _).isInfix
  have unterminated : ';' ∉ placed.indent ++ body := by
    intro member
    rcases List.mem_append.1 member with inIndent | inBody
    · cases placed.isGap _ inIndent
    · exact isExpression.notMem (by decide) inBody
  -- The terminator is the only entry of the table on the line, and it stands at the end.
  have respelled : respell (placed.lineAt 5) = placed.indent ++ body := by
    rw [shape, respell_of_once table mark unterminated (by decide), List.append_nil]
    · intro spelling member
      rw [← shape]
      exact noSpelling spelling (List.mem_append_left _ member)
    · intro spelling member occurs
      rw [List.append_nil] at occurs
      exact noSpelling spelling (List.mem_append_right _ member) (occurs.trans within)
  exact respellLine_of_respell respelled (fun occurs => noClass (occurs.trans within))
    fun occurs => noMain (occurs.trans within)

/-- Nothing to be respelled stands in front of a brace alone. -/
theorem not_isInfix_brace {opening : Text}
    (visible : opening.head?.any (fun char => !isBlank char) = true)
    (absent : ¬opening <:+: braceTail true) : ¬opening <:+: placed.indent ++ braceTail true :=
  fun occurs => absent (placed.isGap.isInfix_of_isInfix_append visible occurs)

theorem respellDeclaration_brace :
    respellDeclaration (placed.indent ++ braceTail true) = placed.indent ++ braceTail true := by
  apply respellDeclaration_eq_self
  rw [List.dropWhile_append_of_pos placed.isGap]
  rfl

/-- Of a header around the program only the brace is left. -/
theorem respellLine_header {front back : List (String × String)} {old : String} {first : Char}
    {tail : Text} (table : spellings = front ++ (old, "") :: back)
    (shape : old.toList = first :: tail)
    (header : placed.item.textAt 5 = (first :: tail) ++ braceTail true)
    (lacking : front.all (fun spelling => placed.item.lacks 5 spelling.1.toList) = true) :
    respellLine (placed.lineAt 5) = placed.indent ++ braceTail true := by
  have listed : (old, "") ∈ spellings ∧ front ⊆ spellings ∧ back ⊆ spellings := by
    rw [table]
    exact ⟨List.mem_append_right front List.mem_cons_self, List.subset_append_left front _,
      fun _ member => List.mem_append_right front (List.mem_cons_of_mem _ member)⟩
  have notInBrace : ∀ spelling ∈ spellings, ¬spelling.1.toList <:+: braceTail true := by decide
  have missing : first ∉ placed.indent := by
    intro member
    have visible := spellings_visible _ listed.1
    rw [shape] at visible
    simp [placed.isGap.allBlank first member] at visible
  have respelled : respell (placed.lineAt 5) = placed.indent ++ braceTail true := by
    have line : placed.lineAt 5 = placed.indent ++ ((first :: tail) ++ braceTail true) := by
      rw [lineAt, header]
    rw [line, respell_of_once table shape missing]
    · rw [← shape]
      exact notInBrace _ listed.1
    · intro spelling member
      rw [← line]
      exact placed.not_isInfix_lineAt (spellings_visible spelling (listed.2.1 member))
        (List.all_eq_true.1 lacking spelling member)
    · intro spelling member
      exact placed.not_isInfix_brace (spellings_visible spelling (listed.2.2 member))
        (notInBrace spelling (listed.2.2 member))
  rw [respellLine_of_respell respelled (placed.not_isInfix_brace rfl (by decide))
    (placed.not_isInfix_brace rfl (by decide)), respellDeclaration_brace]

end PlacedItem

/-! ## Statements with a terminator -/

theorem Name.notMem_text (name : Name) {char : Char} (outside : char.isAlphanum = false) :
    char ∉ name.text := by
  intro member
  rw [name.isAlphanum_of_mem member] at outside
  cases outside

/-- A name, an equals sign and a value. -/
def assigned (name : Name) (value : Arithmetic) : Text :=
  name.text ++ (" = ".toList ++ value.text)

section Terminated

variable (name : Name) (value : Arithmetic)

theorem isExpression_assigned : IsExpression (assigned name value) := by
  have sign : IsExpression " = ".toList := by decide
  exact name.isExpression.append (sign.append value.isExpression)

theorem isToken_assigned : IsToken (assigned name value) where
  nonempty := List.cons_ne_nil _ _
  starts := name.startsSolid_append _
  ends := by
    rw [assigned, ← List.append_assoc]
    exact value.isToken.ends.append value.isToken.nonempty

theorem comma_notMem_assigned : ',' ∉ assigned name value := by
  intro member
  rcases List.mem_append.1 member with inName | member
  · exact name.notMem_text (by decide) inName
  · rcases List.mem_append.1 member with inSign | inValue
    · exact absurd inSign (by decide)
    · exact value.comma_notMem inValue

variable {indent : Text} (isGap : IsGap indent)

include isGap

theorem Name.respellDeclaration_declare :
    respellDeclaration (indent ++ ("int ".toList ++ name.text)) =
      indent ++ (name.text ++ " = None".toList) := by
  rw [respellDeclaration_int isGap name.isToken (name.notMem_text (by decide)), assignment,
    if_neg (name.notMem_text (by decide)), List.append_assoc, List.append_assoc]
  rfl

theorem respellDeclaration_define :
    respellDeclaration (indent ++ ("int ".toList ++ assigned name value)) =
      indent ++ assigned name value := by
  have sign : '=' ∈ assigned name value := by
    apply List.mem_append_right
    exact List.mem_append_left _ (by decide)
  rw [respellDeclaration_int isGap (isToken_assigned name value)
    (comma_notMem_assigned name value), assignment, if_pos sign]

theorem respellDeclaration_assign :
    respellDeclaration (indent ++ assigned name value) = indent ++ assigned name value := by
  have lacking : ("final" :: declaredTypes).all (fun word =>
      (Item.statement (.assign name value)).lacks 5 word.toList) = true := rfl
  have absent : ∀ word ∈ "final" :: declaredTypes, ¬word.toList <+: assigned name value := by
    intro word member starts
    have within : assigned name value <+: (Item.statement (.assign name value)).textAt 5 :=
      ⟨";".toList, by rw [assigned, List.append_assoc, List.append_assoc]; rfl⟩
    exact Item.not_isInfix_of_lacks (List.all_eq_true.1 lacking word member)
      (starts.trans within).isInfix
  have solid : StartsSolid (assigned name value) := name.startsSolid_append _
  apply respellDeclaration_eq_self
  rw [dropWhile_append_of_stop isGap solid.isTabOrSpace_eq_false,
    skipModifier_of_not_isPrefix (absent _ List.mem_cons_self)]
  apply behindType?_eq_none
  intro type member
  exact absent type (List.mem_cons_of_mem _ member)

end Terminated

/-! ## Lines and listings -/

theorem Item.newline_notMem_textAt (stage : Nat) (item : Item) : '\n' ∉ item.textAt stage := by
  rw [mem_textAt (by decide), wordsAt]
  split
  all_goals
    cases item with
    | statement content => rcases content with _ | _ | _ | ⟨⟨⟩, _⟩ <;> exact of_decide_eq_true rfl
    | loop | branch | elseBranch | otherwise | close | classHeader | mainHeader | blank =>
        exact of_decide_eq_true rfl

namespace PlacedItem

theorem newline_notMem_lineAt (stage : Nat) (placed : PlacedItem) :
    '\n' ∉ placed.lineAt stage := by
  intro member
  rcases List.mem_append.1 member with inIndent | inText
  · exact placed.isGap.newline_notMem inIndent
  · exact placed.item.newline_notMem_textAt stage inText

theorem lines_listingAt (stage : Nat) {listing : List PlacedItem} (nonempty : listing ≠ []) :
    lines (listingAt stage listing) = listing.map (lineAt stage) := by
  apply lines_unlines
  · intro empty
    exact nonempty (List.map_eq_nil_iff.1 empty)
  · intro line member
    rcases List.mem_map.1 member with ⟨placed, _, rfl⟩
    exact placed.newline_notMem_lineAt stage

theorem respellLine_statement {indent : Text} (isGap : IsGap indent) (content : Statement) :
    respellLine (lineAt 5 ⟨indent, isGap, .statement content⟩) = indent ++ content.python := by
  have keyword : IsExpression "int ".toList := by decide
  cases content with
  | declare name =>
      rw [respellLine_terminated _ (List.append_assoc _ _ _).symm
        (keyword.append name.isExpression) rfl, name.respellDeclaration_declare isGap]
      rfl
  | define name value =>
      have terminated : (Item.statement (.define name value)).textAt 5 =
          ("int ".toList ++ assigned name value) ++ [';'] := by
        simp only [assigned, List.append_assoc]
        rfl
      rw [respellLine_terminated _ terminated
        (keyword.append (isExpression_assigned name value)) rfl,
        respellDeclaration_define name value isGap]
      rfl
  | assign name value =>
      have terminated : (Item.statement (.assign name value)).textAt 5 =
          assigned name value ++ [';'] := by
        simp only [assigned, List.append_assoc]
        rfl
      rw [respellLine_terminated _ terminated (isExpression_assigned name value) rfl,
        respellDeclaration_assign name value isGap]
      rfl
  | output ending operands => cases ending <;> exact respellLine_of_lacks _ rfl rfl

/-- Respelling brings every line into its final form. -/
theorem respellLine_lineAt (placed : PlacedItem) :
    respellLine (placed.lineAt 5) = placed.lineAt 6 := by
  rw [lineAt_six]
  rcases placed with ⟨indent, isGap, item⟩
  cases item with
  | statement content => exact respellLine_statement isGap content
  | classHeader =>
      have table : spellings = spellings.take 7 ++ ("public class Main", "") ::
          spellings.drop 8 := rfl
      exact respellLine_header _ table rfl rfl rfl
  | mainHeader =>
      have table : spellings = spellings.take 9 ++
          ("public static void main(String[] args)", "") :: spellings.drop 10 := rfl
      exact respellLine_header _ table rfl rfl rfl
  | loop | branch | elseBranch | otherwise | close | blank =>
      exact respellLine_of_lacks _ rfl rfl

theorem convertSpelling_listingAt {listing : List PlacedItem} (nonempty : listing ≠ []) :
    convertSpelling (listingAt 5 listing) = listingAt 6 listing := by
  have each : (listing.map (lineAt 5)).map respellLine = listing.map (lineAt 6) := by
    rw [List.map_map]
    apply List.map_congr_left
    intro placed _
    rw [Function.comp_apply, placed.respellLine_lineAt]
  rw [convertSpelling, lines_listingAt 5 nonempty, each, listingAt]

/-- A listing in front of the layout pass has all its lines converted. -/
theorem respelled_listingAt {listing : List PlacedItem} (nonempty : listing ≠ []) :
    respelled (listingAt 0 listing) = listingAt 6 listing := by
  rw [respelled, looped_listingAt, convertBranches_listingAt, (convertPrints_listingAt listing).1,
    convertSpelling_listingAt nonempty]

end PlacedItem

end Offside
