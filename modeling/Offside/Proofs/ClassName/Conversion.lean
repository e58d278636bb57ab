import Offside.Proofs.Branch
import Offside.Proofs.Builtins
import Offside.Proofs.ClassName.Header
import Offside.Proofs.Layout.Recovery
import Offside.Proofs.Loop.Clauses
import Offside.Proofs.Printing
import Offside.Proofs.Quiescence
import Offside.Proofs.Reading
import Offside.Proofs.Sequence

/-!
# Classes of any name

The conversion of a class whose entry point declares a variable. Up to the spelling pass nothing
in it is recognised, whatever its name, and behind that pass the braces around the declaration
disappear. What is left of the name, if anything is, stays in front of the declaration.
-/

namespace Offside

/-- The lines of a class behind its first one. -/
def classBody : List Text :=
  ["    public static void main(String[] args) \x7b".toList, "        int x = 1;".toList,
    "    \x7d".toList, "\x7d".toList]

/-- A class whose entry point declares a variable. -/
def classProgram (name : Text) : Text :=
  unlines (classLine name :: classBody)

/-- A class from the brace behind its name on. -/
def classTail : Text :=
  '\x7b' :: '\n' :: unlines classBody

theorem classProgram_eq (name : Text) :
    classProgram name = "public class ".toList ++ (name ++ ' ' :: classTail) := by
  have nonempty : classBody ≠ [] := List.cons_ne_nil _ _
  calc classProgram name
    _ = classLine name ++ '\n' :: unlines classBody := unlines_cons nonempty _
    _ = "public class ".toList ++ (name ++ ' ' :: classTail) := classLine_append name _

/-! ## Passes that leave the class as it is -/

section Untouched

variable {name rest : Text} {before : Option Char}
  (inside : ∀ char ∈ name, isIdentifierChar char = true)
include inside

theorem inside_of_append {front keyword more : Text} (split : name = front ++ (keyword ++ more)) :
    ∀ char ∈ more, isIdentifierChar char = true :=
  inside_of_eq_append inside (split.trans (List.append_assoc front keyword more).symm)

theorem consoleReader_silent_name : consoleReader.Silent (' ' :: '\x7b' :: rest) before name :=
  consoleReader_silent_word
    (fun char member => isWordChar_of_isIdentifierChar (inside char member))
    (closesWord_cons (by decide)) rfl

theorem countedLoop_silent_name : countedLoop.Silent (' ' :: '\x7b' :: rest) before name := by
  apply Recognizer.Silent.of_forall
  intro front back split _
  rw [countedLoop_at?]
  cases (guard (opensWord (passed before front) = true) : Option Unit) with
  | none => rfl
  | some _ =>
      rw [Option.bind_some]
      cases found : expect? "for".toList (back ++ ' ' :: '\x7b' :: rest) with
      | none => rfl
      | some behind =>
          obtain ⟨more, rfl, rfl⟩ := expect?_name (by decide) found
          have noParen : expect? "(".toList (skipBlanks (more ++ ' ' :: '\x7b' :: rest)) = none :=
            expect?_behindName (inside_of_append inside split) (by decide) fun _ => by decide
          rw [Option.bind_some, noParen]
          rfl

theorem ifHeader_silent_name : ifHeader.Silent (' ' :: '\x7b' :: rest) before name := by
  apply Recognizer.Silent.of_forall
  intro front back split _
  rw [ifHeader_at?]
  cases (guard (opensWord (passed before front) = true) : Option Unit) with
  | none => rfl
  | some _ =>
      rw [Option.bind_some]
      cases found : expect? "if".toList (back ++ ' ' :: '\x7b' :: rest) with
      | none => rfl
      | some behind =>
          obtain ⟨more, rfl, rfl⟩ := expect?_name (by decide) found
          have noParen : expect? "(".toList (skipBlanks (more ++ ' ' :: '\x7b' :: rest)) = none :=
            expect?_behindName (inside_of_append inside split) (by decide) fun _ => by decide
          rw [Option.bind_some, condition?_eq, noParen]
          rfl

/-- An `else` that is found in a name starts a word, and the rest of the name is behind it. -/
theorem else?_name {front back behind : Text} (split : name = front ++ back) (nonempty : back ≠ [])
    (found : else? (passed before front) (back ++ ' ' :: '\x7b' :: rest) = some behind) :
    opensWord (passed before front) = true ∧
      ∃ more, back = "else".toList ++ more ∧ behind = more ++ ' ' :: '\x7b' :: rest := by
  obtain ⟨char, back, rfl⟩ := List.exists_cons_of_ne_nil nonempty
  have noBrace : char ≠ '\x7d' := by
    rintro rfl
    have isInside := inside '\x7d' (by simp [split])
    cases isInside
  unfold else? at found
  split at found
  · next same => exact absurd (List.cons.inj same).1 noBrace
  · obtain ⟨_, opens, expected⟩ := Option.bind_eq_some_iff.1 found
    exact ⟨(Option.guard_eq_some' _).1 opens, expect?_name (by decide) expected⟩

theorem elseIfHeader_silent_name : elseIfHeader.Silent (' ' :: '\x7b' :: rest) before name := by
  apply Recognizer.Silent.of_forall
  intro front back split nonempty
  rw [elseIfHeader_at?]
  cases found : else? (passed before front) (back ++ ' ' :: '\x7b' :: rest) with
  | none => rfl
  | some behind =>
      obtain ⟨_, more, rfl, rfl⟩ := else?_name inside split nonempty found
      rw [Option.bind_some]
      cases skipped : skipSome? isBlank (more ++ ' ' :: '\x7b' :: rest) with
      | none => rfl
      | some left =>
          obtain ⟨_, rfl⟩ := skipSome?_behindName (inside_of_append inside split) (by decide)
            isBlank_of_isIdentifierChar skipped
          rfl

/-- Only a class that is named `else` looks like the header of a branch. -/
theorem elseHeader_silent_name (notElse : name ≠ "else".toList) :
    elseHeader.Silent (' ' :: '\x7b' :: rest) before name := by
  apply Recognizer.Silent.of_forall
  intro front back split nonempty
  rw [elseHeader_at?]
  cases found : else? (passed before front) (back ++ ' ' :: '\x7b' :: rest) with
  | none => rfl
  | some behind =>
      obtain ⟨opens, more, rfl, rfl⟩ := else?_name inside split nonempty found
      have unfinished : more ≠ [] := by
        rintro rfl
        -- In front of an `else` that ends the name there would be a character of the name.
        cases front using List.reverseRecOn with
        | nil => exact notElse split
        | append_singleton front last _ =>
            have isInside := inside last (by simp [split])
            simp [opensWord, isWordChar_of_isIdentifierChar isInside] at opens
      have noBrace : expect? "\x7b".toList (skipBlanks (more ++ ' ' :: '\x7b' :: rest)) = none :=
        expect?_behindName (inside_of_append inside split) (by decide)
          fun finished => absurd finished unfinished
      rw [Option.bind_some, noBrace]
      rfl

end Untouched

/-- A recogniser that finds nothing in the three parts of a class finds nothing in it. -/
theorem silent_classProgram {α : Type} {recognizer : Recognizer α} {name : Text}
    (proper : recognizer.Proper) (visible : recognizer.StartsVisibly)
    (front : recognizer.Silent (name ++ ' ' :: classTail) none "public class ".toList)
    (middle : recognizer.Silent (' ' :: classTail) (some ' ') name)
    (back : (recognizer.piecesFrom .free (some ' ') classTail).filterMap Piece.hit? = []) :
    recognizer.Silent [] none (classProgram name) := by
  have tail : recognizer.Silent [] (passed (some ' ') name) (' ' :: classTail) :=
    .cons (visible _ ' ' _ rfl) (proper.silent back)
  rw [classProgram_eq]
  apply Recognizer.Silent.append
  · rwa [List.append_nil]
  · apply Recognizer.Silent.append _ tail
    rwa [List.append_nil]

/-- Behind the name of a class there is nothing for the passes over constructs. -/
theorem noHit_classTail :
    (consoleReader.piecesFrom .free (some ' ') classTail).filterMap Piece.hit? = [] ∧
      (countedLoop.piecesFrom .free (some ' ') classTail).filterMap Piece.hit? = [] ∧
      (elseIfHeader.piecesFrom .free (some ' ') classTail).filterMap Piece.hit? = [] ∧
      (ifHeader.piecesFrom .free (some ' ') classTail).filterMap Piece.hit? = [] ∧
      (elseHeader.piecesFrom .free (some ' ') classTail).filterMap Piece.hit? = [] := by
  decide +kernel

section Passes

variable (name : Identifier)

theorem dot_notMem_classProgram : '.' ∉ classProgram name.text := by
  have front : '.' ∉ "public class ".toList := by decide
  have middle : '.' ∉ name.text := name.notMem (by decide)
  have back : '.' ∉ ' ' :: classTail := by decide
  rw [classProgram_eq, List.mem_append, List.mem_append]
  simp only [front, middle, back, or_self, not_false_eq_true]

theorem convertReads_classProgram :
    (convertReads (classProgram name.text)).text = classProgram name.text ∧
      (convertReads (classProgram name.text)).remarks = [] := by
  have proper := consoleReader_opensWith.proper (by decide)
  have silent : consoleReader.Silent [] none (classProgram name.text) :=
    silent_classProgram proper (consoleReader_opensWith.startsVisibly (by decide))
      (consoleReader_opensWith.silent (by decide)) (consoleReader_silent_name name.inside)
      noHit_classTail.1
  have noReader : dropReaders (classProgram name.text) = classProgram name.text :=
    silent.settles.replaceAll proper
  have noRead : ¬".next".toList <:+: classProgram name.text :=
    not_isInfix_of_notMem (by decide) (dot_notMem_classProgram name)
  rw [convertReads, noReader]
  exact (readStatement_settles noRead).edit readStatement_proper Pass.reading.name

theorem convertLoops_classProgram :
    (convertLoops (classProgram name.text)).text = classProgram name.text ∧
      (convertLoops (classProgram name.text)).remarks = [] := by
  have proper := countedLoop_opensWith.proper (by decide)
  have silent : countedLoop.Silent [] none (classProgram name.text) :=
    silent_classProgram proper (countedLoop_opensWith.startsVisibly (by decide))
      (countedLoop_opensWith.silent (by decide)) (countedLoop_silent_name name.inside)
      noHit_classTail.2.1
  exact silent.settles.edit proper Pass.loops.name

theorem ifHeader_silent_publicClass (rest : Text) :
    ifHeader.Silent rest none "public class ".toList := by
  -- The one letter that could start an `if` stands inside a word.
  have letter : ifHeader.at? (some 'l') ('i' :: ("c class ".toList ++ rest)) = none := rfl
  have front : ifHeader.Silent ('i' :: ("c class ".toList ++ rest)) none "publ".toList :=
    ifHeader_opensWith.silent (by decide)
  have back : ifHeader.Silent rest (some 'i') "c class ".toList :=
    ifHeader_opensWith.silent (by decide)
  exact Recognizer.Silent.append front (.cons letter back)

theorem convertBranches_classProgram (notElse : name.text ≠ "else".toList) :
    convertBranches (classProgram name.text) = classProgram name.text := by
  obtain ⟨_, _, noElseIf, noIf, noElse⟩ := noHit_classTail
  have elseIfProper := elseIfHeader_opensWith.proper (by decide)
  have elseIf : elseIfHeader.Silent [] none (classProgram name.text) :=
    silent_classProgram elseIfProper (elseIfHeader_opensWith.startsVisibly (by decide))
      (elseIfHeader_opensWith.silent (by decide)) (elseIfHeader_silent_name name.inside)
      noElseIf
  have ifProper := ifHeader_opensWith.proper (by decide)
  have onlyIf : ifHeader.Silent [] none (classProgram name.text) :=
    silent_classProgram ifProper (ifHeader_opensWith.startsVisibly (by decide))
      (ifHeader_silent_publicClass _) (ifHeader_silent_name name.inside) noIf
  have elseProper := elseHeader_opensWith.proper (by decide)
  have onlyElse : elseHeader.Silent [] none (classProgram name.text) :=
    silent_classProgram elseProper (elseHeader_opensWith.startsVisibly (by decide))
      (elseHeader_opensWith.silent (by decide)) (elseHeader_silent_name name.inside notElse)
      noElse
  rw [convertBranches, elseIf.settles.replaceAll elseIfProper, onlyIf.settles.replaceAll ifProper,
    onlyElse.settles.replaceAll elseProper]

theorem convertPrints_classProgram :
    (convertPrints (classProgram name.text)).text = classProgram name.text ∧
      (convertPrints (classProgram name.text)).remarks = [] := by
  have absent : ∀ opening ∈ ["System.out.print".toList],
      ¬opening <:+: classProgram name.text := by
    intro opening member
    rw [List.mem_singleton.1 member]
    exact not_isInfix_of_notMem (by decide) (dot_notMem_classProgram name)
  exact (printStatement_opensWith.settles (by decide) absent closesLine_nil).edit
    (printStatement_opensWith.proper (by decide)) Pass.printing.name

end Passes

/-! ## Layout -/

/-- What is set for the end of a name with the brace behind it. -/
def residue (left : Text) : Text :=
  if isTypeName left then "= None".toList else left

/-- An identifier, or the end of one, opens no block. -/
def wordPhrase (left : Text) (nonempty : left ≠ [])
    (inside : ∀ char ∈ left, isIdentifierChar char = true) : PlainPhrase where
  text := left
  nonempty := nonempty
  trimmed := by
    apply trim_eq_self
    · intro char first
      exact isBlank_of_isIdentifierChar char (inside char (List.mem_of_head? first))
    · intro char last
      exact isBlank_of_isIdentifierChar char (inside char (List.mem_of_getLast? last))
  bare := (BraceFree.of_forall (by decide) (by decide) inside).unbraced .outside
  closed := by
    apply Quoting.after_of_unquoted
    intro char member isMark
    have outside : ∀ mark ∈ quoteMarks, isIdentifierChar mark = false := by decide
    exact notMem_of_inside inside (outside char isMark) member
  noColon := by
    intro last
    exact notMem_of_inside inside (by decide) (List.mem_of_getLast? last)
  noBranch := by
    have noSpace : ' ' ∉ left := notMem_of_inside inside (by decide)
    have noColon : ':' ∉ left := notMem_of_inside inside (by decide)
    rw [continuesBranch, Bool.or_eq_false_iff, ← Bool.not_eq_true, ← Bool.not_eq_true,
      List.isPrefixOf_iff_prefix, List.isPrefixOf_iff_prefix]
    exact ⟨fun starts => noSpace (starts.subset (by decide)),
      fun starts => noColon (starts.subset (by decide))⟩

theorem map_respellLine_classBody :
    classBody.map respellLine =
      ["     \x7b".toList, "        x = 1".toList, "    \x7d".toList, "\x7d".toList] := by
  decide +kernel

section Layout

variable {left : Text} (inside : ∀ char ∈ left, isIdentifierChar char = true)
include inside

theorem ofLine_spelledEnd :
    LineShape.ofLine (spelledEnd left) =
      if left = [] then .braces 1 else .statement (residue left) 1 := by
  by_cases nonempty : left = []
  · rw [if_pos nonempty, nonempty]
    decide
  · rw [if_neg nonempty, spelledEnd, residue]
    by_cases isType : isTypeName left = true
    · rw [if_pos isType, if_pos isType]
      decide
    · rw [if_neg isType, if_neg isType]
      exact LineShape.ofLine_plain (wordPhrase left nonempty inside) true

/-- The declaration is set behind an empty line, and no brace is left over. -/
theorem ofLines_class :
    Layout.ofLines (spelledEnd left :: classBody.map respellLine) =
      { lines := [residue left, [], "x = 1".toList] } := by
  have body : Layout.ofLinesFrom { loose := 1 } 2 (classBody.map respellLine) =
      { lines := [[], "x = 1".toList] } := by
    rw [map_respellLine_classBody]
    decide +kernel
  rw [Layout.ofLines, Layout.ofLinesFrom, ofLine_spelledEnd inside]
  by_cases nonempty : left = []
  · simp only [if_pos nonempty, Margin.next, Margin.set?, Margin.stray?, body]
    rw [nonempty]
    decide
  · simp only [if_neg nonempty, Margin.next, Margin.set?, Margin.stray?, body]
    rfl

end Layout

/-! ## Names -/

/-- The declaration on the last line of what is set. -/
def declarationTail : Text :=
  "\n\nx = 1".toList

theorem equalsSign_silent_word {left : Text} {before : Option Char}
    (inside : ∀ char ∈ left, isIdentifierChar char = true) :
    equalsSign.Silent declarationTail before left := by
  apply Recognizer.Silent.of_forall
  intro front back split _
  have insideBack : ∀ char ∈ back, isIdentifierChar char = true := by
    intro char member
    apply inside
    rw [split]
    exact List.mem_append_right front member
  have stop : ∀ char, declarationTail.head? = some char → isIdentifierChar char = false := by
    intro char first
    cases first
    rfl
  have noSign : expect? "=".toList (skipBlanks declarationTail) = none := by decide
  rw [equalsSign_at?, dropWhile_append_of_stop insideBack stop, noSign]
  cases (guard (opensWord (passed before front) = true) : Option Unit) with
  | none => rfl
  | some _ =>
      cases (guard ((back ++ declarationTail).head?.any isIdentifierStart = true) :
        Option Unit) <;> rfl

theorem assignedNames_append {left : Text}
    (inside : ∀ char ∈ left, isIdentifierChar char = true) :
    assignedNames (left ++ declarationTail) = ["x".toList] := by
  have newline : ∀ before, equalsSign.at? before declarationTail = none := fun before =>
    equalsSign_startsVisibly before '\n' _ (by decide)
  have tail : ∀ before, (equalsSign.piecesFrom .free before declarationTail).filterMap
      Piece.hit? = [("x =".toList, { identifier := "x".toList, doubled := false })] := by
    intro before
    have behind : (equalsSign.piecesFrom .free (some '\n') "\nx = 1".toList).filterMap
        Piece.hit? = [("x =".toList, { identifier := "x".toList, doubled := false })] := by
      decide +kernel
    have shape : declarationTail = '\n' :: "\nx = 1".toList := by decide
    rw [shape] at newline ⊢
    rw [Recognizer.piecesFrom_of_at?_eq_none (newline before), List.filterMap_cons]
    exact behind
  rw [assignedNames, Recognizer.hits, Recognizer.pieces,
    (equalsSign_silent_word inside).piecesFrom_append, List.filterMap_append,
    Recognizer.filterMap_hit?_gaps, tail]
  decide

/-- No name is changed in what is set. -/
theorem convertNames_residue {left : Text}
    (inside : ∀ char ∈ left, isIdentifierChar char = true) :
    (convertNames (residue left ++ declarationTail)).text = residue left ++ declarationTail := by
  rw [residue]
  split
  · decide +kernel
  · have hidden : hiddenBuiltins (left ++ declarationTail) = [] := by
      rw [hiddenBuiltins, assignedNames_append inside]
      decide
    rw [convertNames, hidden]
    rfl

/-! ## The whole class -/

/-- The text of a class with an end of its name left over. -/
def classOutput (left : Text) : Text :=
  if left = [] then "x = 1".toList else residue left ++ declarationTail

theorem classOutput_eq_iff {left : Text} : classOutput left = "x = 1".toList ↔ left = [] := by
  rw [classOutput]
  constructor
  · intro same
    by_contra nonempty
    rw [if_neg nonempty] at same
    have length := congrArg List.length same
    have longer : declarationTail.length = 7 := by decide
    have shorter : "x = 1".toList.length = 5 := by decide
    rw [List.length_append] at length
    omega
  · intro empty
    rw [if_pos empty]

theorem trim_residue {left : Text} (inside : ∀ char ∈ left, isIdentifierChar char = true) :
    trim (residue left ++ declarationTail) = classOutput left := by
  rw [classOutput]
  split
  · next empty =>
      rw [empty]
      decide
  · next nonempty =>
      have last : declarationTail.getLast? = some '1' := by decide
      have ends : EndsSolid declarationTail := endsSolid_of_getLast? last (by decide)
      have filled : residue left ≠ [] := by
        rw [residue]
        split
        · decide
        · exact nonempty
      have starts : StartsSolid (residue left) := by
        rw [residue]
        split
        · exact startsSolid_cons (by decide)
        · intro char first
          exact isBlank_of_isIdentifierChar char (inside char (List.mem_of_head? first))
      exact trim_eq_self (starts.append filled) (ends.append (by decide))

theorem inside_leftover (name : Identifier) :
    ∀ char ∈ leftover name.text, isIdentifierChar char = true := by
  rw [leftover]
  cases found : leftover? name.text with
  | none =>
      intro char member
      cases member
  | some left => exact inside_leftover? name.inside found

theorem newline_notMem_classLine (name : Identifier) : '\n' ∉ classLine name.text :=
  notMem_classLine name.inside (by decide) (by decide) (by decide)

theorem convertSpelling_classLine (name : Identifier) :
    convertSpelling (classLine name.text) = spelledEnd (leftover name.text) := by
  rw [convertSpelling, lines_of_notMem (newline_notMem_classLine name), List.map_singleton,
    respellLine_classLine, unlines_singleton]

theorem convertSpelling_classProgram (name : Identifier) :
    lines (convertSpelling (classProgram name.text)) =
      spelledEnd (leftover name.text) :: classBody.map respellLine := by
  have bodySingle : ∀ line ∈ classBody, '\n' ∉ line := by decide
  have cut : lines (classProgram name.text) = classLine name.text :: classBody := by
    apply lines_unlines (List.cons_ne_nil _ _)
    intro line member
    rcases List.mem_cons.1 member with rfl | inBody
    · exact newline_notMem_classLine name
    · exact bodySingle line inBody
  have spelledSingle : ∀ line ∈ classBody.map respellLine, '\n' ∉ line := by
    rw [map_respellLine_classBody]
    decide
  have endSingle : '\n' ∉ spelledEnd (leftover name.text) := by
    rw [spelledEnd]
    split
    · decide
    · rw [List.mem_append, not_or]
      exact ⟨notMem_of_inside (inside_leftover name) (by decide), by decide⟩
  rw [convertSpelling, cut, List.map_cons, respellLine_classLine]
  apply lines_unlines (List.cons_ne_nil _ _)
  intro line member
  rcases List.mem_cons.1 member with rfl | inBody
  · exact endSingle
  · exact spelledSingle line inBody

theorem convertLayout_classProgram (name : Identifier) :
    convertLayout (convertSpelling (classProgram name.text)) =
      { text := residue (leftover name.text) ++ declarationTail } := by
  have joined : ∀ text : Text, unlines [text, [], "x = 1".toList] = text ++ declarationTail := by
    intro text
    have tail : '\n' :: ([] ++ '\n' :: "x = 1".toList) = declarationTail := by decide
    rw [unlines_cons_cons, unlines_cons_cons, unlines_singleton, tail]
  simp only [convertLayout, convertSpelling_classProgram, ofLines_class (inside_leftover name),
    joined]

/-- A class is converted without remarks, and the end of its name may be left over. -/
theorem ofSnippet_classProgram (name : Identifier) (notElse : name.text ≠ "else".toList) :
    Rendition.ofSnippet (classProgram name.text) =
      { text := classOutput (leftover name.text) } := by
  obtain ⟨readText, noReadRemark⟩ := convertReads_classProgram name
  obtain ⟨loopText, noLoopRemark⟩ := convertLoops_classProgram name
  obtain ⟨printText, noPrintRemark⟩ := convertPrints_classProgram name
  have loopedText : looped (classProgram name.text) = classProgram name.text := by
    rw [looped, readText, loopText]
  have respelledText : respelled (classProgram name.text) =
      convertSpelling (classProgram name.text) := by
    rw [respelled, loopedText, convertBranches_classProgram name notElse, printText]
  have text : (Rendition.ofSnippet (classProgram name.text)).text =
      classOutput (leftover name.text) := by
    rw [Rendition.text_ofSnippet, respelledText, convertLayout_classProgram,
      convertNames_residue (inside_leftover name), trim_residue (inside_leftover name)]
  have remarks : (Rendition.ofSnippet (classProgram name.text)).remarks = [] := by
    rw [Rendition.remarks_ofSnippet, noReadRemark, readText, noLoopRemark, loopedText,
      convertBranches_classProgram name notElse, noPrintRemark, respelledText,
      convertLayout_classProgram]
    rfl
  generalize Rendition.ofSnippet (classProgram name.text) = rendition at text remarks
  rw [← text, ← remarks]

/-- A strict user gets every class converted without a remark, unless it is named `else`. The
header is removed as a whole, and nothing but the declaration is left, for exactly the names that
do not go on behind one of the two in the table. -/
theorem convertWith_classProgram (name : Identifier) (notElse : name.text ≠ "else".toList) :
    convertWith true (classProgram name.text) =
        .ok { text := classOutput (leftover name.text) } ∧
      (classOutput (leftover name.text) = "x = 1".toList ↔ ¬Overrun name.text) ∧
      (convertSpelling (classLine name.text) = " \x7b".toList ↔ ¬Overrun name.text) := by
  have whole : leftover name.text = [] ↔ ¬Overrun name.text := by
    rw [← leftover_ne_nil_iff, not_not]
  refine ⟨?_, ?_, ?_⟩
  · rw [convertWith, ofSnippet_classProgram name notElse, Rendition.demand_eq,
      if_neg fun both => both.2 rfl]
  · rw [classOutput_eq_iff, whole]
  · rw [convertSpelling_classLine, spelledEnd_eq_brace_iff, whole]

/-- A name that starts like one of the table and is not cut, because it holds a `null`. -/
theorem convertWith_classProgram_mainull :
    "Mainull".toList ≠ "else".toList ∧
      convertWith true (classProgram "Mainull".toList) =
        .ok { text := classOutput (leftover "Mainull".toList) } ∧
      (classOutput (leftover "Mainull".toList) = "x = 1".toList ↔ ¬Overrun "Mainull".toList) ∧
      (convertSpelling (classLine "Mainull".toList) = " \x7b".toList ↔
        ¬Overrun "Mainull".toList) := by
  have starts : ∀ char, "Mainull".toList.head? = some char → isIdentifierStart char = true := by
    intro char first
    cases first
    rfl
  have notElse : "Mainull".toList ≠ "else".toList := by decide
  exact ⟨notElse,
    convertWith_classProgram ⟨"Mainull".toList, by decide, starts, by decide⟩ notElse⟩

/-- A name that is cut: its end stands in the text that a strict user gets without a remark. -/
theorem convertWith_classProgram_mainframe :
    convertWith true (classProgram "Mainframe".toList) =
        .ok { text := "frame\n\nx = 1".toList } ∧
      convertSpelling (classLine "Mainframe".toList) = "frame \x7b".toList := by
  have rendition : Rendition.ofSnippet (classProgram "Mainframe".toList) =
      { text := "frame\n\nx = 1".toList } := by decide +kernel
  refine ⟨?_, by decide +kernel⟩
  rw [convertWith, rendition]
  rfl

end Offside
