import Offside.Proofs.PrintedLiteral.Frame

/-!
# A printed literal, pass by pass

The passes that go through a statement one after the other, for a content that does not end the
statement early. Nothing is read and nothing is counted in it; the print call takes the literal
as its only argument, and the layout sets the call as it is.
-/

namespace Offside

variable {content : Text}

/-! ## Reading and counting -/

theorem count_semicolon_printedLiteral (unended : ';' ∉ content) :
    (printedLiteral content).count ';' = 1 := by
  rw [printedLiteral, List.count_append, List.count_append, List.count_eq_zero.2 unended]
  rfl

/-- Without a call in front of a semicolon nothing is read. -/
theorem convertReads_of_not_isInfix {text : Text} (noCall : ¬"();".toList <:+: dropReaders text) :
    convertReads text = { text := dropReaders text } := by
  apply Recognizer.edit_of_hits_eq_nil
  apply Recognizer.hits_eq_nil
  intro before here statement left suffix found
  obtain ⟨target, behind, _, rfl, closed⟩ := (readStatement_at?_eq_some found).1
  apply noCall
  calc "();".toList
    _ <:+: "();".toList ++ left := (List.prefix_append _ left).isInfix
    _ <:+: behind := closed.isInfix
    _ <:+: dropReaders text := ((List.suffix_append target behind).trans suffix).isInfix

theorem convertLoops_of_count {text : Text} (few : text.count ';' ≤ 1) :
    convertLoops text = { text } := by
  apply Recognizer.edit_of_hits_eq_nil
  apply Recognizer.hits_eq_nil
  intro before here clauses left suffix found
  have many := two_le_count_of_countedLoop found
  have fewer := suffix.sublist.count_le ';'
  omega

/-- The only call with a semicolon behind it is the print call, which has an argument. -/
theorem not_isInfix_call (unended : ';' ∉ content) :
    ¬"();".toList <:+: printedLiteral content := by
  have split : printedLiteral content = (literalFront ++ content) ++ '"' :: ");".toList :=
    (List.append_assoc literalFront content literalTail).symm
  have unendedFront : ';' ∉ literalFront ++ content := by
    rw [List.mem_append, not_or]
    exact ⟨by decide, unended⟩
  rw [split]
  exact not_isInfix_append_cons (by decide) (not_isInfix_of_notMem (by decide) unendedFront)
    (by decide)

theorem convertReads_printedLiteral (unended : ';' ∉ content)
    (noReader : consoleReader.hits (printedLiteral content) = []) :
    convertReads (printedLiteral content) = { text := printedLiteral content } := by
  have noReaders : dropReaders (printedLiteral content) = printedLiteral content :=
    Recognizer.replaceAll_of_hits_eq_nil noReader _
  have noCall := not_isInfix_call unended
  rw [← noReaders] at noCall
  rw [convertReads_of_not_isInfix noCall, noReaders]

theorem convertLoops_printedLiteral (unended : ';' ∉ content) :
    convertLoops (printedLiteral content) = { text := printedLiteral content } :=
  convertLoops_of_count (Nat.le_of_eq (count_semicolon_printedLiteral unended))

/-! ## Printing -/

/-- A literal. -/
def quoted (content : Text) : Text :=
  '"' :: (content ++ ['"'])

theorem annotate_inside {mark : Char} (noMark : mark ∉ content) (noEscape : '\\' ∉ content) :
    (Quoting.inside mark).annotate content = content.map (·, .inside mark) ∧
      (Quoting.inside mark).after content = .inside mark := by
  induction content with
  | nil => exact ⟨rfl, rfl⟩
  | cons char content ih =>
      rw [List.mem_cons, not_or] at noMark noEscape
      have stays : (Quoting.inside mark).next char = .inside mark := by
        simp [Quoting.next, Ne.symm noEscape.1, Ne.symm noMark.1]
      simpa [stays] using ih noMark.2 noEscape.2

/-- Every plus sign inside a literal counts. -/
theorem hasInnerPlus_inside (depth : Nat) (mark : Char) (text : Text)
    (rest : List (Char × Quoting)) :
    hasInnerPlus depth (text.map (·, .inside mark) ++ rest) = true ↔
      '+' ∈ text ∨ hasInnerPlus depth rest = true := by
  induction text with
  | nil => simp
  | cons char text ih =>
      have here : ∀ rest, hasInnerPlus depth ((char, .inside mark) :: rest) =
          (decide (char = '+') || hasInnerPlus depth rest) := fun _ => rfl
      rw [List.map_cons, List.cons_append, here, Bool.or_eq_true, decide_eq_true_eq, ih,
        List.mem_cons, or_assoc, eq_comm]

theorem plusIsDoubtful_quoted (plain : PlainContent content) :
    plusIsDoubtful (quoted content) = true ↔ '+' ∈ content := by
  obtain ⟨annotated, behind⟩ := annotate_inside plain.quote plain.backslash
  have opened : ∀ rest, hasInnerPlus 0 (Quoting.outside.annotate ('"' :: rest)) =
      hasInnerPlus 0 ((Quoting.inside '"').annotate rest) := fun _ => rfl
  have closed : hasInnerPlus 0 ((Quoting.inside '"').annotate ['"']) ≠ true := by decide
  rw [plusIsDoubtful, quoted, opened, Quoting.annotate_append, annotated, behind,
    hasInnerPlus_inside, or_iff_left closed]

theorem trim_quoted (content : Text) : trim (quoted content) = quoted content := by
  apply trim_eq_self
  · exact startsSolid_cons (by decide)
  · have ends : EndsSolid (('"' :: content) ++ ['"']) := endsSolid_concat (by decide)
    exact ends

theorem spreadOperands_of_notMem {arguments : Text} (noPlus : '+' ∉ arguments) :
    spreadOperands arguments = arguments := by
  apply Recognizer.replaceAll_of_hits_eq_nil
  apply Recognizer.hits_eq_nil
  intro before here value left suffix found
  rw [plusSign_at?] at found
  obtain ⟨behind, plusFound, _⟩ := Option.bind_eq_some_iff.1 found
  have inHere : '+' ∈ skipBlanks here := by
    rw [expect?_eq_some.1 plusFound]
    exact List.mem_cons_self
  exact noPlus (((skipBlanks_suffix here).trans suffix).subset inHere)

/-- A statement without a semicolon in its arguments is searched up to its end. -/
theorem shortest?_statementEnd {arguments : Text} (single : '\n' ∉ arguments)
    (unended : ';' ∉ arguments) (rest : Text) :
    shortest? (expect? ");".toList) (arguments ++ (");".toList ++ rest)) =
      some (arguments, rest) := by
  refine shortest?_append single ?_ (expect?_append _ rest)
  intro back nonempty suffix
  apply expect?_eq_none
  rintro ⟨behind, split⟩
  -- The second character of what stands here is a semicolon, and the arguments hold none.
  cases back with
  | nil => exact nonempty rfl
  | cons first back =>
      cases back with
      | nil => cases split
      | cons second back =>
          have isSemicolon : ';' = second := (List.cons.inj (List.cons.inj split).2).1
          rw [← isSemicolon] at suffix
          exact unended (suffix.subset (List.mem_cons_of_mem first List.mem_cons_self))

theorem printStatement_at?_printedLiteral (plain : PlainContent content)
    (unended : ';' ∉ content) :
    printStatement.at? none (printedLiteral content) =
      some ({ ending := .newline, arguments := quoted content }, []) := by
  have notMem : ∀ char, char ≠ '"' → char ∉ content → char ∉ quoted content := by
    intro char other missing
    simp [quoted, other, missing]
  have method : Ending.newline.method = "System.out.println(".toList := rfl
  have tail : literalTail = ['"'] ++ (");".toList ++ []) := rfl
  have split : printedLiteral content =
      Ending.newline.method ++ (quoted content ++ (");".toList ++ [])) := by
    rw [printedLiteral, literalFront_append, tail, quoted, method]
    simp only [List.append_assoc, List.cons_append]
  rw [split]
  exact printStatement_at?_of_shortest? (shortest?_statementEnd
    (notMem '\n' (by decide) plain.newline) (notMem ';' (by decide) unended) []) none .newline

theorem printedLiteral_ne_nil (content : Text) : printedLiteral content ≠ [] :=
  List.cons_ne_nil _ _

theorem render_quoted (noPlus : '+' ∉ content) :
    PrintStatement.render { ending := .newline, arguments := quoted content } =
      printCall content := by
  have noSign : '+' ∉ quoted content := by
    simp [quoted, noPlus]
  simp only [PrintStatement.render, trim_quoted, spreadOperands_of_notMem noSign]
  have tail : callTail = ['"'] ++ ")".toList := rfl
  rw [printCall, callFront_append, tail, quoted]
  simp only [List.append_assoc, List.cons_append]

/-- Without a plus sign the literal is the argument of the call. -/
theorem convertPrints_printedLiteral (plain : PlainContent content) (unended : ';' ∉ content)
    (noPlus : '+' ∉ content) :
    (convertPrints (printedLiteral content)).text = printCall content ∧
      (convertPrints (printedLiteral content)).remarks = [] := by
  have found := printStatement_at?_printedLiteral plain unended
  rw [← List.append_nil (printedLiteral content)] at found
  have certain : plusIsDoubtful (quoted content) = false :=
    Bool.eq_false_iff.2 (mt (plusIsDoubtful_quoted plain).1 noPlus)
  have replaced : PrintStatement.verdict { ending := .newline, arguments := quoted content } =
      .replace (printCall content) := by
    rw [PrintStatement.verdict, certain, render_quoted noPlus]
    rfl
  have settles : printStatement.Settles PrintStatement.verdict [] none (printedLiteral content)
      (printCall content) :=
    .cons_hit (printedLiteral_ne_nil content) found replaced
  exact settles.edit (printStatement_opensWith.proper (by decide)) Pass.printing.name

/-- A plus sign in the literal is remarked upon. -/
theorem remarks_convertPrints_ne_nil (plain : PlainContent content) (unended : ';' ∉ content)
    (plus : '+' ∈ content) : (convertPrints (printedLiteral content)).remarks ≠ [] := by
  have found := printStatement_at?_printedLiteral plain unended
  rw [← List.append_nil (printedLiteral content)] at found
  have proper : printStatement.Proper := printStatement_opensWith.proper (by decide)
  have pieces := proper.piecesFrom_of_at?_eq_some (printedLiteral_ne_nil content) found
  rw [List.append_nil, proper.piecesFrom_nil] at pieces
  have doubtful := (plusIsDoubtful_quoted plain).2 plus
  rw [convertPrints, Recognizer.edit, Recognizer.pieces, pieces]
  simp only [editPieces, PrintStatement.verdict, doubtful, if_true, Verdict.reason?,
    Option.map_some, Option.toList_some, List.append_nil, ne_eq, List.cons_ne_nil,
    not_false_eq_true]

/-! ## Spelling -/

/-- A line that starts with a call of `print` is neither a header nor a declaration. -/
theorem respellLine_call {line rest : Text} (isRespelled : respell line = callFront ++ rest) :
    respellLine line = callFront ++ rest := by
  have noClass : withoutClass (callFront ++ rest) = callFront ++ rest := rfl
  have noMain : withoutMain (callFront ++ rest) = callFront ++ rest := rfl
  rw [respellLine_eq, isRespelled, noClass, noMain]
  exact respellDeclaration_eq_self rfl

theorem respell_append_quote (left right : Text) :
    respell (left ++ '"' :: right) = respell left ++ '"' :: respell right :=
  respellBy_append_cons spellings_ne_nil (by decide) left right

theorem respell_printCall (content : Text) :
    respell (printCall content) = printCall (respell content) := by
  have front : respell "print(".toList = "print(".toList := by decide +kernel
  have back : respell ")".toList = ")".toList := by decide +kernel
  rw [printCall, callFront_append, callTail, respell_append_quote, respell_append_quote, front,
    back, printCall, callFront_append, callTail]

theorem newline_notMem_printCall (single : '\n' ∉ content) : '\n' ∉ printCall content := by
  rw [printCall, List.mem_append, List.mem_append, not_or, not_or]
  exact ⟨by decide, single, by decide⟩

/-- The content is respelled as if it stood alone. -/
theorem convertSpelling_printCall (single : '\n' ∉ content) :
    convertSpelling (printCall content) = printCall (respell content) := by
  rw [convertSpelling, lines_of_notMem (newline_notMem_printCall single), List.map_singleton,
    unlines_singleton]
  exact respellLine_call (respell_printCall content)

/-! ## Layout -/

theorem getLast?_printCall (content : Text) : (printCall content).getLast? = some ')' := by
  have split : printCall content = (callFront ++ content ++ ['"']) ++ [')'] := by
    simp only [printCall, List.append_assoc]
    rfl
  rw [split, List.getLast?_concat]

/-- A call of `print` with a literal, as a line that opens no block. -/
def printPhrase (content : Text) (plain : PlainContent content) : PlainPhrase where
  text := printCall content
  nonempty := List.cons_ne_nil _ _
  trimmed := trim_eq_self (startsSolid_cons (by decide))
    (endsSolid_of_getLast? (getLast?_printCall content) (by decide))
  bare := by
    obtain ⟨annotated, behind⟩ := annotate_inside plain.quote plain.backslash
    have front : Quoting.outside.after callFront = .inside '"' := rfl
    have frontBare : ∀ marked ∈ Quoting.outside.annotate callFront, isBareBrace marked = false := by
      decide
    have tailBare : ∀ marked ∈ (Quoting.inside '"').annotate callTail,
        isBareBrace marked = false := by
      decide
    have contentBare : Unbraced (.inside '"') content := by
      intro marked member
      rw [annotated, List.mem_map] at member
      obtain ⟨char, _, rfl⟩ := member
      rfl
    rw [← Unbraced, printCall, unbraced_append, front, unbraced_append, behind]
    exact ⟨frontBare, contentBare, tailBare⟩
  closed := by
    rw [printCall, Quoting.after_append, Quoting.after_append]
    have front : Quoting.outside.after callFront = .inside '"' := rfl
    rw [front, (annotate_inside plain.quote plain.backslash).2]
    rfl
  noColon := by
    rw [getLast?_printCall]
    decide
  noBranch := rfl

theorem convertLayout_printCall (plain : PlainContent content) :
    convertLayout (printCall content) = { text := printCall content } := by
  have shape : LineShape.ofLine (printCall content) = .statement (printCall content) 0 := by
    have shaped := LineShape.ofLine_plain (printPhrase content plain) false
    have braceless : braceTail false = [] := rfl
    rw [braceless, List.append_nil] at shaped
    exact shaped
  rw [convertLayout, lines_of_notMem (newline_notMem_printCall plain.newline), Layout.ofLines,
    Layout.ofLinesFrom, shape]
  rfl

/-! ## All passes -/

theorem PlainContent.convertBranches (plain : PlainContent content) :
    PlainContent (convertBranches content) where
  quote := notMem_convertBranches (by decide) plain.quote
  backslash := notMem_convertBranches (by decide) plain.backslash
  newline := notMem_convertBranches (by decide) plain.newline

theorem PlainContent.respell (plain : PlainContent content) : PlainContent (respell content) where
  quote := notMem_respellBy (by decide) plain.quote
  backslash := notMem_respellBy (by decide) plain.backslash
  newline := notMem_respellBy (by decide) plain.newline

theorem looped_printedLiteral (unended : ';' ∉ content)
    (noReader : consoleReader.hits (printedLiteral content) = []) :
    looped (printedLiteral content) = printedLiteral content := by
  rw [looped, convertReads_printedLiteral unended noReader, convertLoops_printedLiteral unended]

/-- The content goes through the passes for branches, spellings and names as if it stood alone. -/
theorem ofSnippet_printedLiteral (plain : PlainContent content) (unended : ';' ∉ content)
    (noReader : consoleReader.hits (printedLiteral content) = [])
    (noPlus : '+' ∉ convertBranches content) :
    Rendition.ofSnippet (printedLiteral content) =
      { text := trim (convertNames (printCall (respell (convertBranches content)))).text } := by
  have noSemicolon : ';' ∉ convertBranches content := notMem_convertBranches (by decide) unended
  have loopedText := looped_printedLiteral unended noReader
  obtain ⟨printText, noPrintRemark⟩ :=
    convertPrints_printedLiteral plain.convertBranches noSemicolon noPlus
  have respelledText : respelled (printedLiteral content) =
      printCall (respell (convertBranches content)) := by
    rw [respelled, loopedText, convertBranches_printedLiteral, printText,
      convertSpelling_printCall plain.convertBranches.newline]
  have layout := convertLayout_printCall plain.convertBranches.respell
  have text : (Rendition.ofSnippet (printedLiteral content)).text =
      trim (convertNames (printCall (respell (convertBranches content)))).text := by
    rw [Rendition.text_ofSnippet, respelledText, layout]
  have remarks : (Rendition.ofSnippet (printedLiteral content)).remarks = [] := by
    rw [Rendition.remarks_ofSnippet, convertReads_printedLiteral unended noReader,
      convertLoops_printedLiteral unended, loopedText, convertBranches_printedLiteral,
      noPrintRemark, respelledText, layout]
    rfl
  generalize Rendition.ofSnippet (printedLiteral content) = rendition at text remarks
  rw [← text, ← remarks]

/-- A plus sign that is there when the call is printed is remarked upon. -/
theorem remarks_ofSnippet_printedLiteral_ne_nil (plain : PlainContent content)
    (unended : ';' ∉ content) (noReader : consoleReader.hits (printedLiteral content) = [])
    (plus : '+' ∈ convertBranches content) :
    (Rendition.ofSnippet (printedLiteral content)).remarks ≠ [] := by
  have noSemicolon : ';' ∉ convertBranches content := notMem_convertBranches (by decide) unended
  have remarked := remarks_convertPrints_ne_nil plain.convertBranches noSemicolon plus
  rw [Rendition.remarks_ofSnippet, looped_printedLiteral unended noReader,
    convertBranches_printedLiteral]
  simp [remarked]

end Offside
