import Offside.Proofs.Indentation.Steadiness
import Offside.Proofs.Layout.Recovery
import Offside.Proofs.Sequence
import Offside.Proofs.Spelling

/-!
# Indentation does not matter

Two snippets whose lines differ in their indentation only have the same conversion, with
remarks on the same lines and for the same reasons. The recognisers are steady, so that up to
the spelling pass the texts keep differing in their indentation only; the spelling pass works
on each line by itself; and the layout pass trims the lines it sets.
-/

namespace Offside

/-! ## Texts with another indentation -/

/-- Lines that are the same behind their indentation. -/
def SameBody (line other : Text) : Prop :=
  line.dropWhile isTabOrSpace = other.dropWhile isTabOrSpace

instance (line other : Text) : Decidable (SameBody line other) :=
  inferInstanceAs (Decidable (_ = _))

/-- A line is its indentation and what stands behind it. -/
theorem exists_indent_append (line : Text) :
    ∃ indent, IsGap indent ∧ line = indent ++ line.dropWhile isTabOrSpace :=
  ⟨line.takeWhile isTabOrSpace, List.all_eq_true.1 List.all_takeWhile,
    List.takeWhile_append_dropWhile.symm⟩

theorem sameBody_append {indent otherIndent : Text} (isGap : IsGap indent)
    (isOtherGap : IsGap otherIndent) (body : Text) :
    SameBody (indent ++ body) (otherIndent ++ body) := by
  rw [SameBody, List.dropWhile_append_of_pos isGap, List.dropWhile_append_of_pos isOtherGap]

theorem SameBody.exists_append {line other : Text} (same : SameBody line other) :
    ∃ indent otherIndent body, IsGap indent ∧ IsGap otherIndent ∧ line = indent ++ body ∧
      other = otherIndent ++ body := by
  obtain ⟨indent, isGap, split⟩ := exists_indent_append line
  obtain ⟨otherIndent, isOtherGap, otherSplit⟩ := exists_indent_append other
  refine ⟨indent, otherIndent, _, isGap, isOtherGap, split, ?_⟩
  rw [same]
  exact otherSplit

/-- The indentation behind a newline may be any. -/
def Exchange.indentation : Exchange where
  Allows run other := ∃ indent otherIndent, IsGap indent ∧ IsGap otherIndent ∧
    run = '\n' :: indent ∧ other = '\n' :: otherIndent
  isRun := by
    have isRun : ∀ {indent : Text}, IsGap indent → IsRun ('\n' :: indent) := fun isGap =>
      ⟨List.cons_ne_nil _ _, List.forall_mem_cons.2 ⟨by decide, isGap.allBlank⟩⟩
    rintro _ _ ⟨indent, otherIndent, isGap, isOtherGap, rfl, rfl⟩
    exact ⟨isRun isGap, isRun isOtherGap⟩

namespace Exchange

theorem ledByNewline_indentation : indentation.LedByNewline := by
  rintro _ _ ⟨indent, otherIndent, _, _, rfl, rfl⟩
  exact ⟨⟨indent, rfl⟩, otherIndent, rfl⟩

theorem keepsLines_indentation : indentation.KeepsLines := by
  have single : ∀ {indent : Text}, IsGap indent → newlines ('\n' :: indent) = 1 := by
    intro indent isGap
    simp [newlines, List.count_eq_zero_of_not_mem isGap.newline_notMem]
  rintro _ _ ⟨indent, otherIndent, isGap, isOtherGap, rfl, rfl⟩
  rw [single isGap, single isOtherGap]

end Exchange

/-- Two texts that differ in the indentation of their lines only. -/
def Reindented (one other : Text) : Prop :=
  ∃ indent otherIndent rest otherRest, IsGap indent ∧ IsGap otherIndent ∧
    Respaced .indentation rest otherRest ∧ one = indent ++ rest ∧ other = otherIndent ++ otherRest

theorem reindented_unlines {texts others : List Text} (same : List.Forall₂ SameBody texts others) :
    Reindented (unlines texts) (unlines others) := by
  induction same with
  | nil => exact ⟨[], [], [], [], isGap_nil, isGap_nil, .nil, rfl, rfl⟩
  | cons sameHere sameBehind ih =>
      obtain ⟨indent, otherIndent, body, isGap, isOtherGap, rfl, rfl⟩ := sameHere.exists_append
      cases sameBehind with
      | nil => exact ⟨_, _, _, _, isGap, isOtherGap, .refl body, rfl, rfl⟩
      | cons =>
          obtain ⟨nextIndent, otherNextIndent, rest, otherRest, isNextGap, isOtherNextGap,
            respaced, split, otherSplit⟩ := ih
          refine ⟨indent, otherIndent, body ++ ('\n' :: nextIndent ++ rest),
            body ++ ('\n' :: otherNextIndent ++ otherRest), isGap, isOtherGap, ?_, ?_, ?_⟩
          · exact (Respaced.refl body).append
              (.run ⟨_, _, isNextGap, isOtherNextGap, rfl, rfl⟩ respaced)
          · rw [unlines_cons_cons, split]
            simp
          · rw [unlines_cons_cons, otherSplit]
            simp

theorem Respaced.exists_lines {one other : Text} (respaced : Respaced .indentation one other) :
    ∃ first rest otherRest, lines one = first :: rest ∧ lines other = first :: otherRest ∧
      List.Forall₂ SameBody rest otherRest := by
  induction respaced with
  | nil => exact ⟨[], [], [], rfl, rfl, .nil⟩
  | char char _ ih =>
      obtain ⟨first, rest, otherRest, cut, otherCut, same⟩ := ih
      by_cases newline : char = '\n'
      · exact ⟨[], first :: rest, first :: otherRest, by simp [lines, newline, cut],
          by simp [lines, newline, otherCut], .cons rfl same⟩
      · exact ⟨char :: first, rest, otherRest, lines_cons_of_ne newline cut,
          lines_cons_of_ne newline otherCut, same⟩
  | run allowed _ ih =>
      obtain ⟨first, rest, otherRest, cut, otherCut, same⟩ := ih
      obtain ⟨indent, otherIndent, isGap, isOtherGap, rfl, rfl⟩ := allowed
      refine ⟨[], (indent ++ first) :: rest, (otherIndent ++ first) :: otherRest, ?_, ?_,
        .cons (sameBody_append isGap isOtherGap first) same⟩
      · simp [lines, lines_append_of_notMem isGap.newline_notMem cut]
      · simp [lines, lines_append_of_notMem isOtherGap.newline_notMem otherCut]

theorem Reindented.forall₂_lines {one other : Text} (reindented : Reindented one other) :
    List.Forall₂ SameBody (lines one) (lines other) := by
  obtain ⟨indent, otherIndent, _, _, isGap, isOtherGap, respaced, rfl, rfl⟩ := reindented
  obtain ⟨first, rest, otherRest, cut, otherCut, same⟩ := respaced.exists_lines
  rw [lines_append_of_notMem isGap.newline_notMem cut,
    lines_append_of_notMem isOtherGap.newline_notMem otherCut]
  exact .cons (sameBody_append isGap isOtherGap first) same

/-! ## Passes over the whole text -/

namespace Reindented

variable {α : Type} {recognizer : Recognizer α} {one other : Text}

/-- The pieces of both texts, with an indentation in front of them. -/
theorem exists_pieces (steady : recognizer.Steady .indentation) (proper : recognizer.Proper)
    (visible : recognizer.StartsVisibly) (reindented : Reindented one other) :
    ∃ indent otherIndent pieces otherPieces, IsGap indent ∧ IsGap otherIndent ∧
      Aligned .indentation pieces otherPieces ∧
      recognizer.pieces one = indent.map .gap ++ pieces ∧
      recognizer.pieces other = otherIndent.map .gap ++ otherPieces := by
  obtain ⟨indent, otherIndent, rest, otherRest, isGap, isOtherGap, respaced, rfl, rfl⟩ := reindented
  refine ⟨indent, otherIndent, _, _, isGap, isOtherGap, ?_,
    Recognizer.piecesFrom_append_of_blank visible isGap.allBlank none rest,
    Recognizer.piecesFrom_append_of_blank visible isOtherGap.allBlank none otherRest⟩
  apply steady.aligned proper visible respaced
  rw [opensWord_passed_of_blank isGap.allBlank rfl,
    opensWord_passed_of_blank isOtherGap.allBlank rfl]

theorem replaceAll (steady : recognizer.Steady .indentation) (proper : recognizer.Proper)
    (visible : recognizer.StartsVisibly) (replacement : α → Text)
    (reindented : Reindented one other) :
    Reindented (recognizer.replaceAll replacement one)
      (recognizer.replaceAll replacement other) := by
  obtain ⟨indent, otherIndent, pieces, otherPieces, isGap, isOtherGap, aligned, cut, otherCut⟩ :=
    reindented.exists_pieces steady proper visible
  refine ⟨indent, otherIndent, _, _, isGap, isOtherGap, aligned.respaced replacement, ?_, ?_⟩
  · rw [Recognizer.replaceAll, cut, List.flatMap_append,
      Recognizer.flatMap_replaced_gaps]
  · rw [Recognizer.replaceAll, otherCut, List.flatMap_append,
      Recognizer.flatMap_replaced_gaps]

theorem edit (steady : recognizer.Steady .indentation) (proper : recognizer.Proper)
    (visible : recognizer.StartsVisibly) (origin : String) (verdict : α → Verdict)
    (reindented : Reindented one other) :
    Reindented (recognizer.edit origin (fun _ _ value => verdict value) one).text
        (recognizer.edit origin (fun _ _ value => verdict value) other).text ∧
      List.Forall₂ Remark.Agrees
        (recognizer.edit origin (fun _ _ value => verdict value) one).remarks
        (recognizer.edit origin (fun _ _ value => verdict value) other).remarks := by
  obtain ⟨indent, otherIndent, pieces, otherPieces, isGap, isOtherGap, aligned, cut, otherCut⟩ :=
    reindented.exists_pieces steady proper visible
  obtain ⟨respaced, remarks⟩ :=
    aligned.editPieces Exchange.keepsLines_indentation origin verdict 0 1
  -- The indentation of the first line moves no construct to another line.
  have counted : ∀ {gap : Text}, IsGap gap → 1 + newlines gap = 1 := by
    intro gap isGap
    rw [newlines, List.count_eq_zero_of_not_mem isGap.newline_notMem]
  rw [Recognizer.edit, Recognizer.edit, cut, otherCut, Recognizer.editPieces_gaps_append,
    Recognizer.editPieces_gaps_append, counted isGap, counted isOtherGap]
  exact ⟨⟨indent, otherIndent, _, _, isGap, isOtherGap, respaced, rfl, rfl⟩, remarks⟩

theorem convertReads (reindented : Reindented one other) :
    Reindented (convertReads one).text (Offside.convertReads other).text ∧
      List.Forall₂ Remark.Agrees (Offside.convertReads one).remarks
        (Offside.convertReads other).remarks := by
  have readers : Reindented (dropReaders one) (dropReaders other) :=
    reindented.replaceAll (consoleReader_steady Exchange.ledByNewline_indentation)
      (consoleReader_opensWith.proper (by decide))
      (consoleReader_opensWith.startsVisibly (by decide)) _
  exact readers.edit readStatement_steady readStatement_proper readStatement_startsVisibly
    Pass.reading.name ReadStatement.verdict

theorem convertLoops (reindented : Reindented one other) :
    Reindented (convertLoops one).text (Offside.convertLoops other).text ∧
      List.Forall₂ Remark.Agrees (Offside.convertLoops one).remarks
        (Offside.convertLoops other).remarks :=
  reindented.edit (countedLoop_steady Exchange.ledByNewline_indentation)
    (countedLoop_opensWith.proper (by decide)) (countedLoop_opensWith.startsVisibly (by decide))
    Pass.loops.name LoopClauses.verdict

theorem convertBranches (reindented : Reindented one other) :
    Reindented (convertBranches one) (Offside.convertBranches other) := by
  have led : Exchange.indentation.LedByNewline := Exchange.ledByNewline_indentation
  have chained := reindented.replaceAll (elseIfHeader_steady led)
    (elseIfHeader_opensWith.proper (by decide)) (elseIfHeader_opensWith.startsVisibly (by decide))
    fun condition => "elif ".toList ++ condition ++ ":".toList
  have first := chained.replaceAll (ifHeader_steady led)
    (ifHeader_opensWith.proper (by decide)) (ifHeader_opensWith.startsVisibly (by decide))
    fun condition => "if ".toList ++ condition ++ ":".toList
  exact first.replaceAll elseHeader_steady
    (elseHeader_opensWith.proper (by decide)) (elseHeader_opensWith.startsVisibly (by decide))
    fun _ => "else:".toList

theorem convertPrints (reindented : Reindented one other) :
    Reindented (convertPrints one).text (Offside.convertPrints other).text ∧
      List.Forall₂ Remark.Agrees (Offside.convertPrints one).remarks
        (Offside.convertPrints other).remarks :=
  reindented.edit (printStatement_steady Exchange.ledByNewline_indentation)
    (printStatement_opensWith.proper (by decide))
    (printStatement_opensWith.startsVisibly (by decide))
    Pass.printing.name PrintStatement.verdict

end Reindented

/-! ## The spelling of a line -/

theorem replaceAll_fixed_append {old : Text}
    (solid : old.head?.any (fun char => !isBlank char) = true) (new : Text) {indent : Text}
    (isGap : IsGap indent) (text : Text) :
    (Recognizer.fixed old).replaceAll (fun _ => new) (indent ++ text) =
      indent ++ (Recognizer.fixed old).replaceAll (fun _ => new) text := by
  have visible : (Recognizer.fixed old).StartsVisibly := by
    apply (Recognizer.fixed_opensWith old).startsVisibly
    intro opening member
    rwa [List.mem_singleton.1 member]
  have heedless : (Recognizer.fixed old).piecesFrom .free (passed none indent) text =
      (Recognizer.fixed old).pieces text := by
    cases text <;> rfl
  rw [Recognizer.replaceAll, Recognizer.pieces,
    Recognizer.piecesFrom_append_of_blank visible isGap.allBlank, heedless, List.flatMap_append,
    Recognizer.flatMap_replaced_gaps]
  rfl

theorem spellings_solid : ∀ spelling ∈ spellings,
    spelling.1.toList.head?.any (fun char => !isBlank char) = true := by decide

theorem respellBy_append_left {table : List (String × String)} (within : table ⊆ spellings)
    {indent : Text} (isGap : IsGap indent) (text : Text) :
    respellBy table (indent ++ text) = indent ++ respellBy table text := by
  induction table generalizing text with
  | nil => rfl
  | cons spelling table ih =>
      have solid := spellings_solid spelling (within List.mem_cons_self)
      have here := replaceAll_fixed_append solid spelling.2.toList isGap text
      calc respellBy (spelling :: table) (indent ++ text)
        _ = respellBy table ((Recognizer.fixed spelling.1.toList).replaceAll
              (fun _ => spelling.2.toList) (indent ++ text)) := rfl
        _ = respellBy table (indent ++ (Recognizer.fixed spelling.1.toList).replaceAll
              (fun _ => spelling.2.toList) text) := by rw [here]
        _ = indent ++ respellBy (spelling :: table) text :=
            ih (fun _ member => within (List.mem_cons_of_mem spelling member)) _

namespace SameBody

variable {line other : Text}

theorem respell (same : SameBody line other) : SameBody (respell line) (Offside.respell other) := by
  obtain ⟨indent, otherIndent, body, isGap, isOtherGap, rfl, rfl⟩ := same.exists_append
  rw [respell_eq, respell_eq, respellBy_append_left (List.Subset.refl _) isGap,
    respellBy_append_left (List.Subset.refl _) isOtherGap]
  exact sameBody_append isGap isOtherGap _

theorem withoutClass (same : SameBody line other) :
    SameBody (withoutClass line) (Offside.withoutClass other) := by
  have headers : afterClass? line = afterClass? other := by
    rw [afterClass?_eq, afterClass?_eq, same]
  rw [Offside.withoutClass, Offside.withoutClass, headers]
  cases afterClass? other with
  | none => exact same
  | some rest => rfl

theorem withoutMain (same : SameBody line other) :
    SameBody (withoutMain line) (Offside.withoutMain other) := by
  have headers : afterMain? line = afterMain? other := by
    rw [afterMain?_eq, afterMain?_eq, same]
  rw [Offside.withoutMain, Offside.withoutMain, headers]
  cases afterMain? other with
  | none => exact same
  | some rest => rfl

end SameBody

theorem trimmedLines_append {indent : Text} (isGap : IsGap indent) (text : Text) :
    trimmedLines (indent ++ text) = trimmedLines text := by
  obtain ⟨first, others, cut⟩ := List.exists_cons_of_ne_nil (lines_ne_nil text)
  rw [trimmedLines, trimmedLines, lines_append_of_notMem isGap.newline_notMem cut, cut,
    List.map_cons, List.map_cons, trim_append_left isGap.allBlank]

theorem SameBody.trimmedLines_eq {line other : Text} (same : SameBody line other) :
    trimmedLines line = trimmedLines other := by
  obtain ⟨indent, otherIndent, body, isGap, isOtherGap, rfl, rfl⟩ := same.exists_append
  rw [trimmedLines_append isGap, trimmedLines_append isOtherGap]

theorem assignment_eq_append (indent declarator : Text) :
    assignment indent declarator = indent ++ assignment [] declarator := by
  rw [assignment, assignment]
  split <;> simp

/-- The indentation of a declaration is that of its assignments. -/
theorem trimmedLines_assignments {indent : Text} (isGap : IsGap indent) (declarators : Text) :
    trimmedLines (assignments indent declarators) = trimmedLines (assignments [] declarators) := by
  have each : ∀ declarator, trimmedLines (assignment indent declarator) =
      trimmedLines (assignment [] declarator) := by
    intro declarator
    rw [assignment_eq_append]
    exact trimmedLines_append isGap _
  rw [assignments, assignments]
  generalize ((splitCommas declarators).map trim).filter (· ≠ []) = parts
  by_cases empty : parts = []
  · rw [empty]
    rfl
  calc trimmedLines (unlines (parts.map (assignment indent)))
    _ = (parts.map (assignment indent)).flatMap trimmedLines :=
        trimmedLines_unlines (by simpa using empty)
    _ = (parts.map (assignment [])).flatMap trimmedLines := by simp only [List.flatMap_map, each]
    _ = trimmedLines (unlines (parts.map (assignment []))) :=
        (trimmedLines_unlines (by simpa using empty)).symm

theorem SameBody.trimmedLines_respellDeclaration {line other : Text} (same : SameBody line other) :
    trimmedLines (respellDeclaration line) = trimmedLines (respellDeclaration other) := by
  rw [respellDeclaration, respellDeclaration, Declaration.ofLine?_eq, Declaration.ofLine?_eq, same]
  cases behindType? (skipModifier "final" (other.dropWhile isTabOrSpace)) with
  | none => exact same.trimmedLines_eq
  | some behind =>
      by_cases long : 2 ≤ behind.length
      · have isGap : ∀ text : Text, IsGap (text.takeWhile isTabOrSpace) :=
          fun text => List.all_eq_true.1 List.all_takeWhile
        rw [Option.bind_some, Option.bind_some, guard_of_true long]
        exact (trimmedLines_assignments (isGap line) _).trans
          (trimmedLines_assignments (isGap other) _).symm
      · rw [Option.bind_some, Option.bind_some, guard_of_false long]
        exact same.trimmedLines_eq

/-- What is set for a text after the spelling pass does not depend on its indentation. -/
theorem Reindented.trimmedLines_convertSpelling {one other : Text}
    (reindented : Reindented one other) :
    trimmedLines (convertSpelling one) = trimmedLines (convertSpelling other) := by
  have each : ∀ {line other : Text}, SameBody line other →
      trimmedLines (respellLine line) = trimmedLines (respellLine other) := by
    intro line other same
    rw [respellLine_eq, respellLine_eq]
    exact same.respell.withoutClass.withoutMain.trimmedLines_respellDeclaration
  rw [convertSpelling, convertSpelling, trimmedLines_unlines (by simp [lines_ne_nil]),
    trimmedLines_unlines (by simp [lines_ne_nil]), List.flatMap_map, List.flatMap_map]
  have same := reindented.forall₂_lines
  generalize lines one = texts, lines other = others at same ⊢
  induction same with
  | nil => rfl
  | cons same _ ih => rw [List.flatMap_cons, List.flatMap_cons, each same, ih]

/-! ## The layout -/

theorem LineShape.ofLine_trim (line : Text) : LineShape.ofLine (trim line) = .ofLine line := by
  rw [ofLine_eq, ofLine_eq, trim_trim]

theorem Layout.ofLinesFrom_map_trim (margin : Margin) (line : Nat) (texts : List Text) :
    Layout.ofLinesFrom margin line (texts.map trim) = Layout.ofLinesFrom margin line texts := by
  induction texts generalizing margin line with
  | nil => rfl
  | cons text texts ih => rw [List.map_cons, ofLinesFrom, ofLinesFrom, LineShape.ofLine_trim, ih]

/-- Only the trimmed lines of a text decide on its layout. -/
theorem convertLayout_eq_of_trimmedLines {one other : Text}
    (same : trimmedLines one = trimmedLines other) : convertLayout one = convertLayout other := by
  have layouts : Layout.ofLines (lines one) = Layout.ofLines (lines other) := by
    rw [Layout.ofLines, Layout.ofLines, ← Layout.ofLinesFrom_map_trim, ← trimmedLines, same,
      trimmedLines, Layout.ofLinesFrom_map_trim]
  rw [convertLayout, convertLayout, layouts]

/-! ## The whole conversion -/

/-- Snippets whose lines are the same behind their indentation are converted to the same text,
with remarks of the same passes on the same lines for the same reasons. -/
theorem toPython_eq_of_sameBody {snippet other : String}
    (same : List.Forall₂ SameBody (lines snippet.toList) (lines other.toList)) :
    toPython snippet = toPython other ∧
      List.Forall₂ Remark.Agrees (Rendition.ofSnippet snippet.toList).remarks
        (Rendition.ofSnippet other.toList).remarks := by
  have reindented := reindented_unlines same
  rw [unlines_lines, unlines_lines] at reindented
  obtain ⟨reads, readRemarks⟩ := reindented.convertReads
  obtain ⟨loops, loopRemarks⟩ := reads.convertLoops
  obtain ⟨prints, printRemarks⟩ := loops.convertBranches.convertPrints
  have layouts :
      convertLayout (respelled snippet.toList) = convertLayout (respelled other.toList) :=
    convertLayout_eq_of_trimmedLines prints.trimmedLines_convertSpelling
  constructor
  · rw [toPython, toPython, Rendition.text_ofSnippet, Rendition.text_ofSnippet, layouts]
  · rw [Rendition.remarks_ofSnippet, Rendition.remarks_ofSnippet, layouts]
    have layoutRemarks := List.forall₂_same.2 fun remark
      (_ : remark ∈ (convertLayout (respelled other.toList)).remarks) => Remark.Agrees.refl remark
    exact List.rel_append (List.rel_append (List.rel_append readRemarks loopRemarks) printRemarks)
      layoutRemarks

theorem toPython_eq_of_sameBody_sample :
    let snippet := "\tfor (int i = 1; i < n;\n\t\ti *= 2) \x7b\n\tx = i;\n\t\x7d"
    let other := "for (int i = 1; i < n;\n  i *= 2) \x7b\n    x = i;\n\x7d"
    List.Forall₂ SameBody (lines snippet.toList) (lines other.toList) ∧
      toPython snippet = toPython other ∧
      List.Forall₂ Remark.Agrees (Rendition.ofSnippet snippet.toList).remarks
        (Rendition.ofSnippet other.toList).remarks := by
  intro snippet other
  have same : List.Forall₂ SameBody (lines snippet.toList) (lines other.toList) := by
    unfold snippet other
    exact .cons rfl <| .cons rfl <| .cons rfl <| .cons rfl .nil
  exact ⟨same, toPython_eq_of_sameBody same⟩

end Offside
