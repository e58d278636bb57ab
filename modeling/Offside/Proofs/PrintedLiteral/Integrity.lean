import Offside.Proofs.PrintedLiteral.Passage

/-!
# When a printed literal keeps its content

A strict user gets a printed literal converted with its content unchanged exactly if no pass
finds anything in the content and there is no plus sign in it. Only the plus sign is noticed:
where a pass does find something in the content, it changes it and may leave no remark.

That nothing is found unless the content changes rests on weights. Branches, spellings and names
all lose some of the `burden` of the content, so that one of them cannot make up for another. A
console reader that starts in the content goes on to the end of the statement and takes a quote
along, and no pass brings it back.
-/

namespace Offside

variable {content : Text}

/-- No pass finds anything in the content of a printed literal. -/
structure Intact (content : Text) : Prop where
  noReader : consoleReader.hits (printedLiteral content) = []
  noElseIf : elseIfHeader.hits content = []
  noIf : ifHeader.hits content = []
  noElse : elseHeader.hits content = []
  noSpelling : ∀ spelling ∈ spellings, ¬spelling.1.toList <:+: content
  noBuiltin : hiddenBuiltins content = []

/-! ## Contents that stay -/

namespace Intact

theorem unended (intact : Intact content) : ';' ∉ content := by
  intro member
  obtain ⟨front, back, rfl⟩ := List.append_of_mem member
  exact intact.noSpelling (";", "") (by decide) ⟨front, back, by simp⟩

theorem convertBranches_eq (intact : Intact content) : convertBranches content = content :=
  convertBranches_of_hits_eq_nil intact.noElseIf intact.noIf intact.noElse

theorem convertNames_printCall (intact : Intact content) :
    (convertNames (printCall content)).text = printCall content := by
  rw [convertNames, hiddenBuiltins_printCall, intact.noBuiltin]
  rfl

theorem ofSnippet_printedLiteral (intact : Intact content) (plain : PlainContent content)
    (noPlus : '+' ∉ content) :
    Rendition.ofSnippet (printedLiteral content) = { text := printCall content } := by
  have noPlusKept : '+' ∉ convertBranches content := by
    rwa [intact.convertBranches_eq]
  have trimmed : trim (printCall content) = printCall content := (printPhrase content plain).trimmed
  rw [Offside.ofSnippet_printedLiteral plain intact.unended intact.noReader noPlusKept,
    intact.convertBranches_eq, respell_of_absent intact.noSpelling, intact.convertNames_printCall,
    trimmed]

theorem remarks_ofSnippet_ne_nil (intact : Intact content) (plain : PlainContent content)
    (plus : '+' ∈ content) : (Rendition.ofSnippet (printedLiteral content)).remarks ≠ [] := by
  have plusKept : '+' ∈ convertBranches content := by
    rwa [intact.convertBranches_eq]
  exact remarks_ofSnippet_printedLiteral_ne_nil plain intact.unended intact.noReader plusKept

end Intact

/-! ## A console reader in the content -/

theorem weigh_quote_printCall (plain : PlainContent content) :
    weigh (occurrence '"') (printCall content) = 2 := by
  rw [printCall, weigh_append, weigh_append, weigh_occurrence_eq_zero.2 plain.quote]
  decide

theorem weigh_quote_printedLiteral (plain : PlainContent content) :
    weigh (occurrence '"') (printedLiteral content) = 2 := by
  rw [printedLiteral, weigh_append, weigh_append, weigh_occurrence_eq_zero.2 plain.quote]
  decide

/-- A reader that starts in the content ends where the statement does, and takes the quote and the
semicolon along. -/
theorem mem_of_consoleReader (unended : ';' ∉ content) {before : Option Char}
    {matched rest : Text} {value : Unit} (suffix : matched ++ rest <:+ printedLiteral content)
    (found : consoleReader.at? before (matched ++ rest) = some (value, rest)) :
    '"' ∈ matched ∧ ';' ∈ matched := by
  obtain ⟨behind, split, inner, rfl⟩ := consoleReader_encloses _ _ _ _ found
  have taken : matched = ("Scanner".toList ++ inner) ++ ");".toList := by
    apply List.append_cancel_right
    rw [split]
    simp only [List.append_assoc]
  have semicolon : ';' ∈ matched := by
    rw [taken]
    exact List.mem_append_right _ (by decide)
  obtain ⟨front, whole⟩ := suffix
  -- There is one semicolon, and the statement ends with it, so that nothing is left behind.
  have count := count_semicolon_printedLiteral unended
  have closing : printedLiteral content = (literalFront ++ content ++ ['"']) ++ ");".toList := by
    simp only [printedLiteral, List.append_assoc]
    rfl
  have nothing : rest = [] := by
    by_contra nonempty
    have last : (front ++ matched ++ rest).getLast? = some ';' := by
      rw [List.append_assoc, whole, closing, List.getLast?_append]
      rfl
    have inRest := List.count_pos_iff.2 (mem_of_getLast?_append nonempty last)
    have inMatched := List.count_pos_iff.2 semicolon
    rw [← whole, List.count_append, List.count_append] at count
    omega
  have quoteLast : (front ++ ("Scanner".toList ++ inner)) = literalFront ++ content ++ ['"'] := by
    apply List.append_cancel_right
    rw [← closing, ← whole, nothing, taken]
    simp only [List.append_assoc, List.append_nil]
  refine ⟨?_, semicolon⟩
  have last : (front ++ ("Scanner".toList ++ inner)).getLast? = some '"' := by
    rw [quoteLast, List.getLast?_concat]
  rw [taken]
  exact List.mem_append_left _ (mem_of_getLast?_append (List.cons_ne_nil _ _) last)

theorem consoleReader_sheds (unended : ';' ∉ content) {counted : Char}
    (listed : counted = '"' ∨ counted = ';') :
    consoleReader.Sheds (occurrence counted) (fun _ => []) 1 (printedLiteral content) := by
  intro before matched value rest suffix found
  obtain ⟨quote, semicolon⟩ := mem_of_consoleReader unended suffix found
  have member : counted ∈ matched := by
    rcases listed with rfl | rfl
    · exact quote
    · exact semicolon
  have positive := List.count_pos_iff.2 member
  have heavy : (1 : Int) ≤ weigh (occurrence counted) matched := by
    rw [weigh_occurrence]
    omega
  simpa using heavy

/-- The headers are not looked for in the front of the statement, whatever stands behind it. -/
theorem exists_convertBranches_append (rest : Text) :
    ∃ behind, convertBranches (literalFront ++ rest) = literalFront ++ behind := by
  obtain ⟨first, firstEq⟩ := (elseIfHeader_frames.front_silent rest).exists_replaceAll_append
    fun condition => "elif ".toList ++ condition ++ ":".toList
  obtain ⟨second, secondEq⟩ := (ifHeader_frames.front_silent first).exists_replaceAll_append
    fun condition => "if ".toList ++ condition ++ ":".toList
  obtain ⟨third, thirdEq⟩ := (elseHeader_frames.front_silent second).exists_replaceAll_append
    fun _ => "else:".toList
  refine ⟨third, ?_⟩
  rw [convertBranches, firstEq, secondEq, thirdEq]

theorem convertPrints_of_notMem {text : Text} (unended : ';' ∉ text) :
    convertPrints text = { text } := by
  apply Recognizer.edit_of_hits_eq_nil
  apply Recognizer.hits_eq_nil
  intro before here statement left suffix found
  have closed := printStatement_encloses.isInfix found
  exact unended (suffix.subset (closed.subset (by decide)))

/-- A line that starts like a printed literal is respelled by the table only. -/
theorem convertSpelling_literalFront {rest : Text} (single : '\n' ∉ literalFront ++ rest) :
    convertSpelling (literalFront ++ rest) = respell (literalFront ++ rest) := by
  have front : respell "System.out.println(".toList = "print(".toList := by decide +kernel
  have called : respell (literalFront ++ rest) = callFront ++ respell rest := by
    rw [literalFront_append, respell_append_quote, front, callFront_append]
  rw [convertSpelling, lines_of_notMem single, List.map_singleton, unlines_singleton,
    respellLine_call called, called]

/-- Nothing is put into a single line. -/
theorem convertLayout_sublist {line : Text} (single : '\n' ∉ line) :
    (convertLayout line).text.Sublist line := by
  have set : (convertLayout line).text =
      unlines (({} : Margin).set? (.ofLine line)).toList := by
    rw [convertLayout, lines_of_notMem single]
    simp [Layout.ofLines, Layout.ofLinesFrom]
  rw [set, LineShape.ofLine_eq]
  split
  · exact List.nil_sublist line
  split
  · exact List.nil_sublist line
  split
  · exact List.nil_sublist line
  · obtain ⟨depth, shallow, isSet, _⟩ := ({} : Margin).set?_ofBody
      (trim (dropBraces (trim line))) (openBraces (trim line))
    have top : depth = 0 := Nat.le_zero.1 shallow
    rw [isSet, top, Option.toList_some, unlines_singleton]
    calc List.Sublist (trim (dropBraces (trim line))) (dropBraces (trim line)) := trim_sublist _
      List.Sublist _ (trim line) := dropBraces_sublist _
      List.Sublist _ line := trim_sublist line

theorem newline_notMem_printedLiteral (single : '\n' ∉ content) :
    '\n' ∉ printedLiteral content := by
  rw [printedLiteral, List.mem_append, List.mem_append, not_or, not_or]
  exact ⟨by decide, single, by decide⟩

/-- Without its reader the statement has neither its end nor the second quote. -/
theorem exists_dropReaders_printedLiteral (plain : PlainContent content) (unended : ';' ∉ content)
    (reader : consoleReader.hits (printedLiteral content) ≠ []) :
    ∃ rest, dropReaders (printedLiteral content) = literalFront ++ rest ∧
      weigh (occurrence '"') (literalFront ++ rest) ≤ 1 ∧ ';' ∉ literalFront ++ rest ∧
      '\n' ∉ literalFront ++ rest := by
  have proper : consoleReader.Proper := consoleReader_opensWith.proper (by decide)
  have silent : consoleReader.Silent (content ++ literalTail) none literalFront :=
    consoleReader_opensWith.silent_of_apart (by decide) _
  obtain ⟨rest, dropped⟩ := silent.exists_replaceAll_append fun _ => []
  have quotes := (consoleReader_sheds unended (.inl rfl)).weigh_replaceAll proper
  have semicolons := (consoleReader_sheds unended (.inr rfl)).weigh_replaceAll proper
  have single : '\n' ∉ consoleReader.replaceAll (fun _ => []) (printedLiteral content) := by
    intro member
    rcases Recognizer.mem_of_mem_replaceAll member with inText | ⟨_, inNothing⟩
    · exact newline_notMem_printedLiteral plain.newline inText
    · cases inNothing
  have found := List.length_pos_iff.2 reader
  have whole : consoleReader.replaceAll (fun _ => []) (printedLiteral content) =
      literalFront ++ rest := dropped
  rw [weigh_quote_printedLiteral plain, whole] at quotes
  rw [weigh_occurrence, weigh_occurrence, count_semicolon_printedLiteral unended, whole]
    at semicolons
  rw [whole] at single
  refine ⟨rest, whole, by omega, ?_, single⟩
  rw [← List.count_eq_zero]
  omega

theorem occurrence_quote_of_isBlank {char : Char} (blank : isBlank char = true) :
    occurrence '"' char = 0 := by
  apply if_neg
  rintro rfl
  cases blank

/-- A statement with a reader in its literal comes out with one quote at most. -/
theorem weigh_quote_ofSnippet_le (plain : PlainContent content) (unended : ';' ∉ content)
    (reader : consoleReader.hits (printedLiteral content) ≠ []) :
    weigh (occurrence '"') (Rendition.ofSnippet (printedLiteral content)).text ≤ 1 := by
  obtain ⟨rest, dropped, fewQuotes, noSemicolon, single⟩ :=
    exists_dropReaders_printedLiteral plain unended reader
  have noCall : ¬"();".toList <:+: dropReaders (printedLiteral content) := by
    rw [dropped]
    exact not_isInfix_of_notMem (by decide) noSemicolon
  have loopedText : looped (printedLiteral content) = literalFront ++ rest := by
    have fewSemicolons : (literalFront ++ rest).count ';' ≤ 1 := by
      rw [List.count_eq_zero.2 noSemicolon]
      exact Nat.zero_le 1
    rw [looped, convertReads_of_not_isInfix noCall, dropped, convertLoops_of_count fewSemicolons]
  obtain ⟨behind, branched⟩ := exists_convertBranches_append rest
  have branchedSemicolon : ';' ∉ literalFront ++ behind := by
    rw [← branched]
    exact notMem_convertBranches (by decide) noSemicolon
  have branchedSingle : '\n' ∉ literalFront ++ behind := by
    rw [← branched]
    exact notMem_convertBranches (by decide) single
  have respelledText : respelled (printedLiteral content) = respell (literalFront ++ behind) := by
    rw [respelled, loopedText, branched, convertPrints_of_notMem branchedSemicolon,
      convertSpelling_literalFront branchedSingle]
  have respelledSingle : '\n' ∉ respell (literalFront ++ behind) :=
    notMem_respellBy (by decide) branchedSingle
  have branchedQuotes : weigh (occurrence '"') (literalFront ++ behind) ≤
      weigh (occurrence '"') (literalFront ++ rest) := by
    rw [← branched]
    exact (BranchWeight.of_occurrence (by decide)).weigh_convertBranches_le _
  rw [Rendition.text_ofSnippet, respelledText, weigh_trim fun _ => occurrence_quote_of_isBlank]
  generalize laidOut : (convertLayout (respell (literalFront ++ behind))).text = setText
  calc weigh (occurrence '"') (convertNames setText).text
    _ ≤ weigh (occurrence '"') setText := weigh_convertNames_le (by decide) setText
    _ ≤ weigh (occurrence '"') (respell (literalFront ++ behind)) := by
        rw [← laidOut]
        exact weigh_le_of_sublist (occurrence_nonneg '"') (convertLayout_sublist respelledSingle)
    _ ≤ weigh (occurrence '"') (literalFront ++ behind) :=
        weigh_respellBy_le spellings_ne_nil (by decide) _
    _ ≤ 1 := Int.le_trans branchedQuotes fewQuotes

/-! ## Contents that change -/

theorem semicolon_notMem_ofSnippet (snippet : Text) :
    ';' ∉ (Rendition.ofSnippet snippet).text := by
  rw [Rendition.text_ofSnippet]
  exact (undelimited_convertLayout (semicolon_notMem_convertSpelling _)).convertNames.trim.semicolon

theorem weigh_printCall (weight : Char → Int) (text : Text) :
    weigh weight (printCall text) =
      weigh weight callFront + (weigh weight text + weigh weight callTail) := by
  rw [printCall, weigh_append, weigh_append]

/-- If the content has come through all passes, then none of them has found anything. -/
theorem hits_eq_nil_of_printCall
    (same : printCall content =
      trim (convertNames (printCall (respell (convertBranches content)))).text) :
    (elseIfHeader.hits content = [] ∧ ifHeader.hits content = [] ∧ elseHeader.hits content = []) ∧
      (∀ spelling ∈ spellings, ¬spelling.1.toList <:+: content) ∧ hiddenBuiltins content = [] := by
  have lighterSpellings : ∀ spelling ∈ spellings,
      weigh burden spelling.2.toList ≤ weigh burden spelling.1.toList := fun spelling listed =>
    Int.le_of_lt (burden_spellings spelling listed)
  have named := weigh_convertNames_le (Int.le_of_lt burden_freshEnding)
    (printCall (respell (convertBranches content)))
  have spelled := weigh_respellBy_le spellings_ne_nil lighterSpellings (convertBranches content)
  have branched := branchWeight_burden.weigh_convertBranches_le content
  have balance := congrArg (weigh burden) same
  rw [weigh_trim fun _ => burden_of_isBlank, weigh_printCall] at balance
  rw [weigh_printCall, respell_eq] at named
  rw [respell_eq] at balance
  have keptBranches : weigh burden content ≤ weigh burden (convertBranches content) := by omega
  have noHeader := branchWeight_burden.hits_eq_nil keptBranches
  have unbranched := convertBranches_of_hits_eq_nil noHeader.1 noHeader.2.1 noHeader.2.2
  rw [unbranched] at balance named spelled
  have keptSpelling : weigh burden content ≤ weigh burden (respellBy spellings content) := by omega
  have noSpelling := absent_of_weigh_respellBy spellings_ne_nil burden_spellings keptSpelling
  refine ⟨noHeader, noSpelling, ?_⟩
  have unspelled : respellBy spellings content = content := respell_of_absent noSpelling
  rw [unspelled, ← weigh_printCall] at balance
  rw [← hiddenBuiltins_printCall]
  exact hiddenBuiltins_eq_nil_of_weigh burden_freshEnding (Int.le_of_eq balance)

theorem intact_of_ofSnippet (plain : PlainContent content)
    (same : Rendition.ofSnippet (printedLiteral content) = { text := printCall content }) :
    Intact content := by
  have unended : ';' ∉ content := by
    have absent := semicolon_notMem_ofSnippet (printedLiteral content)
    rw [same] at absent
    exact fun member => absent (List.mem_append_right _ (List.mem_append_left _ member))
  have noReader : consoleReader.hits (printedLiteral content) = [] := by
    by_contra reader
    have few := weigh_quote_ofSnippet_le plain unended reader
    rw [same, weigh_quote_printCall plain] at few
    omega
  have noPlus : '+' ∉ convertBranches content := by
    intro plus
    have remarked := remarks_ofSnippet_printedLiteral_ne_nil plain unended noReader plus
    rw [same] at remarked
    exact remarked rfl
  have whole := ofSnippet_printedLiteral plain unended noReader noPlus
  rw [same, Rendition.mk.injEq] at whole
  obtain ⟨⟨noElseIf, noIf, noElse⟩, noSpelling, noBuiltin⟩ := hits_eq_nil_of_printCall whole.1
  exact { noReader, noElseIf, noIf, noElse, noSpelling, noBuiltin }

/-! ## Strict conversion -/

/-- A strict user gets the rendition, or a refusal if there is a remark on it. -/
theorem convertWith_true_eq_ok_iff {snippet : Text} {rendition : Rendition} :
    convertWith true snippet = .ok rendition ↔
      Rendition.ofSnippet snippet = rendition ∧ rendition.remarks = [] := by
  rw [convertWith, Rendition.demand_eq]
  by_cases remarked : (Rendition.ofSnippet snippet).remarks = []
  · simp only [remarked, ne_eq, not_true_eq_false, and_false, if_false, Except.ok.injEq]
    constructor
    · rintro rfl
      exact ⟨rfl, remarked⟩
    · exact And.left
  · simp only [remarked, ne_eq, not_false_eq_true, and_self, if_true, reduceCtorEq, false_iff]
    rintro ⟨rfl, clean⟩
    exact remarked clean

/-- A printed literal is converted with its content unchanged exactly if no pass finds anything in
the content and there is no plus sign in it. A plus sign in a content in which nothing is found is
refused. A content without a plus sign that holds neither the end of the statement nor a console
reader is never refused, but converted as if it were not in a literal. -/
theorem convertWith_printedLiteral (content : Text) (plain : PlainContent content) :
    (convertWith true (printedLiteral content) = .ok { text := printCall content } ↔
      Intact content ∧ '+' ∉ content) ∧
    (Intact content → '+' ∈ content →
      ∃ refusal, convertWith true (printedLiteral content) = .error refusal) ∧
    (';' ∉ content → consoleReader.hits (printedLiteral content) = [] → '+' ∉ content →
      convertWith true (printedLiteral content) = .ok
        { text := trim (convertNames (printCall (respell (convertBranches content)))).text }) := by
  refine ⟨?_, ?_, ?_⟩
  · rw [convertWith_true_eq_ok_iff]
    constructor
    · rintro ⟨same, _⟩
      have intact := intact_of_ofSnippet plain same
      refine ⟨intact, fun plus => ?_⟩
      have remarked := intact.remarks_ofSnippet_ne_nil plain plus
      rw [same] at remarked
      exact remarked rfl
    · rintro ⟨intact, noPlus⟩
      exact ⟨intact.ofSnippet_printedLiteral plain noPlus, rfl⟩
  · intro intact plus
    have remarked := intact.remarks_ofSnippet_ne_nil plain plus
    refine ⟨⟨Rendition.ofSnippet (printedLiteral content)⟩, ?_⟩
    rw [convertWith, Rendition.demand_eq, if_pos ⟨rfl, remarked⟩]
  · intro unended noReader noPlus
    rw [convertWith_true_eq_ok_iff]
    have noPlusBranched : '+' ∉ convertBranches content :=
      notMem_convertBranches (by decide) noPlus
    exact ⟨ofSnippet_printedLiteral plain unended noReader noPlusBranched, rfl⟩

/-- A content with much in it that looks like a program. -/
def lookalike : Text :=
  "public class Foo: if (x) then \x7bsum == 1\x7d, it's".toList

theorem convertWith_printedLiteral_lookalike :
    PlainContent lookalike ∧ Intact lookalike ∧ '+' ∉ lookalike ∧
      convertWith true (printedLiteral lookalike) = .ok { text := printCall lookalike } := by
  have plain : PlainContent lookalike :=
    { quote := by decide, backslash := by decide, newline := by decide }
  have intact : Intact lookalike :=
    { noReader := by decide +kernel
      noElseIf := by decide +kernel
      noIf := by decide +kernel
      noElse := by decide +kernel
      noSpelling := by decide +kernel
      noBuiltin := by decide +kernel }
  have noPlus : '+' ∉ lookalike := by decide
  exact ⟨plain, intact, noPlus, (convertWith_printedLiteral lookalike plain).1.2 ⟨intact, noPlus⟩⟩

/-- A content that is lost without a remark, because it is a spelling of the table. -/
theorem convertWith_printedLiteral_classMain :
    PlainContent "public class Main".toList ∧
      convertWith true (printedLiteral "public class Main".toList) =
        .ok { text := "print(\"\")".toList } ∧
      "print(\"\")".toList ≠ printCall "public class Main".toList := by
  have rendition : Rendition.ofSnippet (printedLiteral "public class Main".toList) =
      { text := "print(\"\")".toList } := by decide +kernel
  refine ⟨{ quote := by decide, backslash := by decide, newline := by decide }, ?_, by decide⟩
  rw [convertWith, rendition]
  rfl

end Offside
