import Offside.Proofs.Branch
import Offside.Proofs.Builtins
import Offside.Proofs.Layout.Legality
import Offside.Proofs.Loop.Clauses
import Offside.Proofs.Printing
import Offside.Proofs.Reading
import Offside.Proofs.Sequence
import Offside.Proofs.Spelling
import Offside.Proofs.Text.Spacing

/-!
# Quiet texts

A text that holds nothing for a pass to look at keeps its lines: there is no remark on it, and
the conversion changes blanks at the ends of the lines and of the text only. Only the layout
pass touches it, by setting each line at some depth. That changes blanks between names and
equals signs, but not which names are assigned to.
-/

namespace Offside

/-! ## Blanks between a name and an equals sign -/

theorem isBlank_eq_false_of_isIdentifierStart {char : Char}
    (starts : isIdentifierStart char = true) : isBlank char = false := by
  apply isBlank_eq_false_of_isIdentifierChar
  rw [isIdentifierStart, Bool.or_eq_true] at starts
  rw [isIdentifierChar, Bool.or_eq_true]
  exact starts.imp_left isAlphanum_of_isAlpha

theorem equalsSign_proper : equalsSign.Proper := by
  intro before text sign rest found
  rw [equalsSign_at?] at found
  simp only [Option.bind_eq_some_iff] at found
  obtain ⟨_, _, _, _, behind, expected, result⟩ := found
  obtain ⟨skipped, split⟩ := (skipBlanks_suffix _).trans
    (List.dropWhile_suffix isIdentifierChar (l := text))
  obtain ⟨doubled, left⟩ : rest <:+ behind := by
    split at result
    · next found =>
        cases result
        exact expect?_suffix found
    · cases result
      exact List.suffix_rfl
  refine ⟨skipped ++ "=".toList ++ doubled, by simp, ?_⟩
  rw [← split, expect?_eq_some.1 expected, ← left]
  simp

theorem equalsSign_startsVisibly : equalsSign.StartsVisibly := by
  intro before char rest blank
  have outside : ((char :: rest).head?.any isIdentifierStart) ≠ true := by
    intro starts
    rw [isBlank_eq_false_of_isIdentifierStart starts] at blank
    cases blank
  rw [equalsSign_at?, guard_of_false outside]
  cases (guard (opensWord before = true) : Option Unit) <;> rfl

theorem equalsSign_steady {exchange : Exchange} : equalsSign.Steady exchange := by
  intro before otherBefore one other opens respaced
  obtain ⟨identifier, behind⟩ :=
    (Abreast.start respaced).span fun _ => isBlank_eq_false_of_isIdentifierChar
  rw [equalsSign_at?, equalsSign_at?, identifier,
    respaced.head?_any fun _ => isBlank_eq_false_of_isIdentifierStart]
  refine rel_bind (rel_guard (by rw [opens])) fun _ _ _ => ?_
  refine rel_bind (rel_guard Iff.rfl) fun _ _ _ => ?_
  refine rel_bind (behind.skipBlanks.expect? (by decide)) fun rest otherRest single => ?_
  have doubled : Option.Rel (Abreast exchange one other) (expect? "=".toList rest)
      (expect? "=".toList otherRest) := single.expect? (by decide)
  generalize expect? "=".toList rest = found, expect? "=".toList otherRest = otherFound
    at doubled ⊢
  cases doubled with
  | none => exact .some ⟨rfl, single⟩
  | some left => exact .some ⟨rfl, left⟩

/-! ## Blanks at the end -/

section Blanks

variable {blanks : Text}

theorem expect?_append_blank (blank : AllBlank blanks) {fixed : Text}
    (visible : ∀ char ∈ fixed, isBlank char = false) (text : Text) :
    expect? fixed (text ++ blanks) = (expect? fixed text).map (· ++ blanks) := by
  induction fixed generalizing text with
  | nil => rfl
  | cons wanted fixed ih =>
      cases text with
      | nil =>
          cases blanks with
          | nil => rfl
          | cons char blanks =>
              apply expect?_cons_of_ne
              rintro rfl
              have solid := visible char List.mem_cons_self
              rw [blank char List.mem_cons_self] at solid
              cases solid
      | cons char text =>
          have tail :=
            ih (fun other member => visible other (List.mem_cons_of_mem wanted member)) text
          by_cases same : char = wanted
          · simpa [expect?, same] using tail
          · simp [expect?, same]

theorem span_append_blank (blank : AllBlank blanks) {member : Char → Bool}
    (visible : ∀ char, member char = true → isBlank char = false) (text : Text) :
    (text ++ blanks).takeWhile member = text.takeWhile member ∧
      (text ++ blanks).dropWhile member = text.dropWhile member ++ blanks := by
  induction text with
  | nil =>
      cases blanks with
      | nil => exact ⟨rfl, rfl⟩
      | cons char rest =>
          have isRun : IsRun (char :: rest) := ⟨List.cons_ne_nil char rest, blank⟩
          simpa using isRun.span_append visible []
  | cons char text ih => cases inside : member char <;> simp [inside, ih]

theorem equalsSign_at?_append_blank (blank : AllBlank blanks) (before : Option Char) (text : Text) :
    equalsSign.at? before (text ++ blanks) =
      (equalsSign.at? before text).map fun found => (found.1, found.2 ++ blanks) := by
  have first : (text ++ blanks).head?.any isIdentifierStart = text.head?.any isIdentifierStart := by
    cases text with
    | cons char text => rfl
    | nil =>
        cases blanks with
        | nil => rfl
        | cons char blanks =>
            have isRun : IsRun (char :: blanks) := ⟨List.cons_ne_nil char blanks, blank⟩
            exact isRun.head?_any (fun _ => isBlank_eq_false_of_isIdentifierStart) []
  obtain ⟨identifier, behind⟩ :=
    span_append_blank blank (fun _ => isBlank_eq_false_of_isIdentifierChar) text
  have visible : ∀ char ∈ "=".toList, isBlank char = false := by decide
  have signed : ∀ rest, expect? "=".toList (skipBlanks (rest ++ blanks)) =
      (expect? "=".toList (skipBlanks rest)).map (· ++ blanks) := by
    intro rest
    rw [skipBlanks, List.dropWhile_append]
    split
    · next empty =>
        have skipped : skipBlanks rest = [] := List.isEmpty_iff.1 empty
        have skippedBlanks : blanks.dropWhile isBlank = [] := skipBlanks_eq_nil blank
        rw [skipped, skippedBlanks]
        rfl
    · exact expect?_append_blank blank visible (skipBlanks rest)
  rw [equalsSign_at?, equalsSign_at?, first, identifier, behind, signed]
  rw [Option.map_bind]
  refine Option.bind_congr fun _ _ => ?_
  rw [Function.comp, Option.map_bind]
  refine Option.bind_congr fun _ _ => ?_
  rw [Function.comp, Option.map_bind, Option.bind_map]
  refine Option.bind_congr fun rest _ => ?_
  rw [Function.comp, Function.comp, expect?_append_blank blank visible]
  cases expect? "=".toList rest <;> rfl

/-- Blanks at the end of a text are gaps behind its pieces. -/
theorem Recognizer.Cuts.append_blank {α : Type} {recognizer : Recognizer α}
    (visible : recognizer.StartsVisibly)
    (unheeded : ∀ before text, recognizer.at? before (text ++ blanks) =
      (recognizer.at? before text).map fun found => (found.1, found.2 ++ blanks))
    {before : Option Char} {text : Text} {pieces : List (Piece α)}
    (blank : AllBlank blanks) (cuts : recognizer.Cuts before text pieces) :
    recognizer.Cuts before (text ++ blanks) (pieces ++ blanks.map .gap) := by
  induction cuts with
  | @nil before =>
      clear unheeded
      rw [List.nil_append, List.nil_append]
      induction blanks generalizing before with
      | nil => exact .nil
      | cons char rest ih =>
          exact .gap (visible before char rest (blank char List.mem_cons_self))
            (ih fun other member => blank other (List.mem_cons_of_mem char member))
  | @gap before char text _ missing _ ih =>
      have stillMissing := unheeded before (char :: text)
      rw [missing] at stillMissing
      exact .gap stillMissing ih
  | hit nonempty found _ ih =>
      rw [List.append_assoc]
      refine .hit nonempty ?_ ih
      rw [← List.append_assoc, unheeded, found]
      rfl

end Blanks

/-! ## Assigned names -/

/-- Names are assigned to by the equals signs of a text. -/
theorem assignedNames_eq (text : Text) :
    assignedNames text = ((equalsSign.hits text).map Prod.snd).filterMap fun sign =>
      if sign.doubled then none else some sign.identifier := by
  rw [List.filterMap_map]
  rfl

theorem assignedNames_append_blank {blanks : Text} (blank : AllBlank blanks) (text : Text) :
    assignedNames (text ++ blanks) = assignedNames text := by
  have cuts := (equalsSign_proper.cuts none text).append_blank equalsSign_startsVisibly
    (equalsSign_at?_append_blank blank) blank
  rw [assignedNames_eq, assignedNames_eq, Recognizer.hits, Recognizer.pieces,
    cuts.piecesFrom_eq equalsSign_proper, List.filterMap_append, Recognizer.filterMap_hit?_gaps,
    List.append_nil]
  rfl

/-- Any run of blanks may stand in the place of any other. -/
def Exchange.anyRun : Exchange where
  Allows run other := IsRun run ∧ IsRun other
  isRun := id

/-- The same names are assigned to in respaced texts, whatever blanks stand in front of them. -/
theorem assignedNames_eq_of_respaced {exchange : Exchange} {lead otherLead rest otherRest : Text}
    (blank : AllBlank lead) (otherBlank : AllBlank otherLead)
    (respaced : Respaced exchange rest otherRest) :
    assignedNames (lead ++ rest) = assignedNames (otherLead ++ otherRest) := by
  have opens : opensWord (passed none lead) = opensWord (passed none otherLead) := by
    rw [opensWord_passed_of_blank blank rfl, opensWord_passed_of_blank otherBlank rfl]
  have aligned :=
    equalsSign_steady.aligned equalsSign_proper equalsSign_startsVisibly respaced opens
  have behind : ∀ {lead : Text}, AllBlank lead → ∀ rest, (equalsSign.hits (lead ++ rest)) =
      (equalsSign.piecesFrom .free (passed none lead) rest).filterMap Piece.hit? := by
    intro lead blank rest
    rw [Recognizer.hits, Recognizer.pieces,
      Recognizer.piecesFrom_append_of_blank equalsSign_startsVisibly blank, List.filterMap_append,
      Recognizer.filterMap_hit?_gaps, List.nil_append]
  rw [assignedNames_eq, assignedNames_eq, behind blank, behind otherBlank, aligned.values_eq]

/-! ## The layout of texts without braces -/

/-- What is set for a line is its trimmed part, behind some blanks. -/
def SetFor (line setText : Text) : Prop :=
  ∃ indent, AllBlank indent ∧ setText = indent ++ trim line

theorem SetFor.trim_eq {line setText : Text} (set : SetFor line setText) :
    trim setText = trim line := by
  obtain ⟨indent, blank, rfl⟩ := set
  rw [trim_append_left blank, trim_trim]

theorem map_trim_of_set {texts setTexts : List Text} (set : List.Forall₂ SetFor texts setTexts) :
    setTexts.map trim = texts.map trim := by
  induction set with
  | nil => rfl
  | cons isSet _ ih => rw [List.map_cons, List.map_cons, isSet.trim_eq, ih]

theorem Margin.stray?_ofBody (margin : Margin) (body : Text) (opened : Nat) :
    margin.stray? (.ofBody body opened) = none := by
  rw [LineShape.ofBody]
  split
  · rfl
  · split <;> rfl

theorem Margin.set?_of_braceFree (margin : Margin) {line : Text} (free : BraceFree line) :
    ∃ setText, margin.set? (.ofLine line) = some setText ∧ SetFor line setText ∧
      margin.stray? (.ofLine line) = none := by
  by_cases empty : trim line = []
  · have shape : LineShape.ofLine line = .blank := by rw [LineShape.ofLine_eq, if_pos empty]
    rw [shape]
    exact ⟨[], rfl, ⟨[], allBlank_nil, by rw [empty, List.append_nil]⟩, rfl⟩
  · obtain ⟨depth, _, set, _⟩ := margin.set?_ofBody (trim line) 0
    rw [LineShape.ofLine_of_braceFree free empty, set]
    refine ⟨_, rfl, ⟨_, ?_, rfl⟩, margin.stray?_ofBody (trim line) 0⟩
    exact allBlank_replicate_space _

theorem Layout.ofLinesFrom_of_braceFree {texts : List Text} (free : ∀ text ∈ texts, BraceFree text)
    (margin : Margin) (line : Nat) :
    List.Forall₂ SetFor texts (Layout.ofLinesFrom margin line texts).lines ∧
      (Layout.ofLinesFrom margin line texts).remarks = [] := by
  induction texts generalizing margin line with
  | nil => exact ⟨.nil, rfl⟩
  | cons text texts ih =>
      obtain ⟨setText, set, isSet, noStray⟩ :=
        margin.set?_of_braceFree (free text List.mem_cons_self)
      obtain ⟨lines, remarks⟩ :=
        ih (fun other member => free other (List.mem_cons_of_mem text member))
          (margin.next (.ofLine text)) (line + 1)
      simp only [Layout.ofLinesFrom, set, noStray, remarks]
      exact ⟨.cons isSet lines, rfl⟩

theorem isRun_newline {front back : Text} (frontBlank : AllBlank front)
    (backBlank : AllBlank back) : IsRun (front ++ '\n' :: back) where
  nonempty := by simp
  blank := allBlank_append frontBlank (List.forall_mem_cons.2 ⟨by decide, backBlank⟩)

/-- Setting lines changes the blanks around their trimmed parts. A newline behind the last line
makes the blanks at its end a run like the others. -/
theorem exists_respaced_unlines {texts setTexts : List Text} (nonempty : texts ≠ [])
    (set : List.Forall₂ SetFor texts setTexts) :
    ∃ lead setLead rest setRest, AllBlank lead ∧ AllBlank setLead ∧
      Respaced .anyRun rest setRest ∧ unlines texts ++ ['\n'] = lead ++ rest ∧
      unlines setTexts ++ ['\n'] = setLead ++ setRest := by
  induction set with
  | nil => exact absurd rfl nonempty
  | @cons text setText texts setTexts isSet behind ih =>
      obtain ⟨indent, indentBlank, rfl⟩ := isSet
      obtain ⟨front, back, frontBlank, backBlank, split⟩ := exists_surrounded_trim text
      cases behind with
      | nil =>
          have runs : Respaced .anyRun (back ++ ['\n'] ++ []) (['\n'] ++ []) :=
            .run ⟨isRun_newline backBlank allBlank_nil, isRun_newline allBlank_nil allBlank_nil⟩
              .nil
          refine ⟨front, indent, _, _, frontBlank, indentBlank,
            (Respaced.refl (trim text)).append runs, ?_, ?_⟩
          · conv_lhs => rw [unlines_singleton, split]
            simp
          · simp
      | cons =>
          obtain ⟨lead, setLead, rest, setRest, leadBlank, setLeadBlank, respaced, joined,
            setJoined⟩ := ih (List.cons_ne_nil _ _)
          have runs :
              Respaced .anyRun (back ++ '\n' :: lead ++ rest) ('\n' :: setLead ++ setRest) :=
            .run ⟨isRun_newline backBlank leadBlank, isRun_newline allBlank_nil setLeadBlank⟩
              respaced
          refine ⟨front, indent, _, _, frontBlank, indentBlank,
            (Respaced.refl (trim text)).append runs, ?_, ?_⟩
          · rw [unlines_cons_cons, List.append_assoc, List.cons_append, joined]
            conv_lhs => rw [split]
            simp
          · rw [unlines_cons_cons, List.append_assoc, List.cons_append, setJoined]
            simp

theorem assignedNames_unlines {texts setTexts : List Text} (nonempty : texts ≠ [])
    (set : List.Forall₂ SetFor texts setTexts) :
    assignedNames (unlines setTexts) = assignedNames (unlines texts) := by
  obtain ⟨lead, setLead, rest, setRest, blank, setBlank, respaced, joined, setJoined⟩ :=
    exists_respaced_unlines nonempty set
  have newline : AllBlank ['\n'] := by decide
  calc assignedNames (unlines setTexts)
    _ = assignedNames (unlines setTexts ++ ['\n']) := (assignedNames_append_blank newline _).symm
    _ = assignedNames (setLead ++ setRest) := by rw [setJoined]
    _ = assignedNames (lead ++ rest) := (assignedNames_eq_of_respaced blank setBlank respaced).symm
    _ = assignedNames (unlines texts ++ ['\n']) := by rw [joined]
    _ = assignedNames (unlines texts) := assignedNames_append_blank newline _

/-! ## Quiet texts -/

/-- A text that holds no construct, no spelling and no header that a pass looks for, no brace,
and no assignment to a built-in name. -/
structure Quiet (text : Text) : Prop where
  noReader : consoleReader.hits text = []
  noRead : readStatement.hits text = []
  noLoop : countedLoop.hits text = []
  noElseIf : elseIfHeader.hits text = []
  noIf : ifHeader.hits text = []
  noElse : elseHeader.hits text = []
  noPrint : printStatement.hits text = []
  noClass : ∀ line ∈ lines text, afterClass? line = none
  noMain : ∀ line ∈ lines text, afterMain? line = none
  noDeclaration : ∀ line ∈ lines text, Declaration.ofLine? line = none
  noSpelling : ∀ spelling ∈ spellings, ¬spelling.1.toList <:+: text
  braceFree : BraceFree text
  noHidden : hiddenBuiltins text = []

/-- The trimmed lines of a text, without the blank ones. -/
def visibleLines (text : Text) : List Text :=
  (trimmedLines text).filter (· ≠ [])

namespace Quiet

variable {text : Text}

theorem convertReads_eq (quiet : Quiet text) : convertReads text = { text } := by
  rw [convertReads, dropReaders, Recognizer.replaceAll_of_hits_eq_nil quiet.noReader,
    Recognizer.edit_of_hits_eq_nil quiet.noRead]

theorem convertLoops_eq (quiet : Quiet text) : convertLoops text = { text } :=
  Recognizer.edit_of_hits_eq_nil quiet.noLoop _ _

theorem convertBranches_eq (quiet : Quiet text) : convertBranches text = text := by
  rw [convertBranches, Recognizer.replaceAll_of_hits_eq_nil quiet.noElseIf,
    Recognizer.replaceAll_of_hits_eq_nil quiet.noIf,
    Recognizer.replaceAll_of_hits_eq_nil quiet.noElse]

theorem convertPrints_eq (quiet : Quiet text) : convertPrints text = { text } :=
  Recognizer.edit_of_hits_eq_nil quiet.noPrint _ _

theorem respellLine_eq (quiet : Quiet text) {line : Text} (member : line ∈ lines text) :
    respellLine line = line := by
  have respelled : respell line = line := respell_of_absent fun spelling listed occurs =>
    quiet.noSpelling spelling listed (occurs.trans (isInfix_of_mem_lines member))
  rw [Offside.respellLine_eq, respelled, withoutClass, quiet.noClass line member,
    Option.getD_none, withoutMain, quiet.noMain line member, Option.getD_none, respellDeclaration,
    quiet.noDeclaration line member]
  rfl

theorem convertSpelling_eq (quiet : Quiet text) : convertSpelling text = text := by
  have unchanged : (lines text).map respellLine = lines text := by
    conv_rhs => rw [← List.map_id (lines text)]
    exact List.map_congr_left fun line member => quiet.respellLine_eq member
  rw [convertSpelling, unchanged, unlines_lines]

/-- A quiet text reaches the layout pass as it is. -/
theorem respelled_eq (quiet : Quiet text) : respelled text = text := by
  rw [respelled, looped, quiet.convertReads_eq, quiet.convertLoops_eq, quiet.convertBranches_eq,
    quiet.convertPrints_eq, quiet.convertSpelling_eq]

/-- The layout pass sets the lines of a quiet text one by one and has nothing to remark. -/
theorem exists_setLines (quiet : Quiet text) :
    ∃ setTexts, convertLayout text = { text := unlines setTexts } ∧
      List.Forall₂ SetFor (lines text) setTexts ∧ ∀ setText ∈ setTexts, '\n' ∉ setText := by
  have free : ∀ line ∈ lines text, BraceFree line := fun line member =>
    quiet.braceFree.mono (isInfix_of_mem_lines member).subset
  obtain ⟨set, noRemark⟩ := Layout.ofLinesFrom_of_braceFree free {} 1
  refine ⟨(Layout.ofLines (lines text)).lines, ?_, set, newline_notMem_layout_lines text⟩
  rw [convertLayout, Layout.ofLines, noRemark]

/-- Behind the layout pass there is still no built-in to be renamed. -/
theorem convertNames_eq (quiet : Quiet text) {setTexts : List Text}
    (set : List.Forall₂ SetFor (lines text) setTexts) :
    (convertNames (unlines setTexts)).text = unlines setTexts := by
  have hidden : hiddenBuiltins (unlines setTexts) = hiddenBuiltins text := by
    rw [hiddenBuiltins, hiddenBuiltins, assignedNames_unlines (lines_ne_nil text) set,
      unlines_lines]
  rw [convertNames, hidden, quiet.noHidden]
  rfl

end Quiet

/-! ## The lines that are left -/

/-- Two texts with the same lines, but for blanks at the ends of the lines and blank lines at the
ends of the first text. -/
def KeepsLines (text outcome : Text) : Prop :=
  ∃ front core back, lines text = front ++ core ++ back ∧ (∀ line ∈ front, AllBlank line) ∧
    (∀ line ∈ back, AllBlank line) ∧ core.map trim = trimmedLines outcome

theorem KeepsLines.visibleLines_eq {text outcome : Text} (keeps : KeepsLines text outcome) :
    visibleLines outcome = visibleLines text := by
  obtain ⟨front, core, back, split, frontBlank, backBlank, trimmed⟩ := keeps
  have nothing : ∀ {texts : List Text}, (∀ line ∈ texts, AllBlank line) →
      (texts.map trim).filter (· ≠ []) = [] := by
    intro texts blank
    rw [List.filter_eq_nil_iff]
    intro line member
    obtain ⟨source, inTexts, rfl⟩ := List.mem_map.1 member
    simpa using trim_eq_nil_iff.2 (blank source inTexts)
  rw [visibleLines, visibleLines, ← trimmed, trimmedLines, split, List.map_append, List.map_append,
    List.filter_append, List.filter_append, nothing frontBlank, nothing backBlank, List.nil_append,
    List.append_nil]

/-- Texts with the same trimmed lines lose the same lines. -/
theorem KeepsLines.of_trimmedLines_eq {one other outcome : Text} (keeps : KeepsLines one outcome)
    (same : trimmedLines other = trimmedLines one) : KeepsLines other outcome := by
  obtain ⟨front, core, back, split, frontBlank, backBlank, trimmed⟩ := keeps
  rw [trimmedLines, trimmedLines, split, List.map_append, List.map_append] at same
  obtain ⟨start, otherBack, joined, sameStart, sameBack⟩ := List.map_eq_append_iff.1 same
  obtain ⟨otherFront, otherCore, rfl, sameFront, sameCore⟩ := List.map_eq_append_iff.1 sameStart
  have blank : ∀ {texts others : List Text}, (∀ line ∈ texts, AllBlank line) →
      others.map trim = texts.map trim → ∀ line ∈ others, AllBlank line := by
    intro texts others textsBlank sameTrims line member
    have inTrims : trim line ∈ texts.map trim := by
      rw [← sameTrims]
      exact List.mem_map_of_mem member
    obtain ⟨source, inTexts, sameTrim⟩ := List.mem_map.1 inTrims
    rw [← trim_eq_nil_iff, ← sameTrim, trim_eq_nil_iff]
    exact textsBlank source inTexts
  exact ⟨otherFront, otherCore, otherBack, joined, blank frontBlank sameFront,
    blank backBlank sameBack, sameCore.trans trimmed⟩

/-- There is no remark on a quiet snippet, and the conversion keeps its lines. -/
theorem Quiet.keepsLines_toPython {snippet : String} (quiet : Quiet snippet.toList) :
    (Rendition.ofSnippet snippet.toList).remarks = [] ∧
      visibleLines (toPython snippet).toList = visibleLines snippet.toList ∧
      KeepsLines snippet.toList (toPython snippet).toList := by
  obtain ⟨setTexts, layout, set, single⟩ := quiet.exists_setLines
  have outcome : (toPython snippet).toList = trim (unlines setTexts) := by
    rw [toPython, String.toList_ofList, Rendition.text_ofSnippet, quiet.respelled_eq, layout,
      quiet.convertNames_eq set]
  have nonempty : setTexts ≠ [] := by
    rintro rfl
    exact lines_ne_nil _ (List.forall₂_nil_right_iff.1 set)
  have sameLines : trimmedLines snippet.toList = trimmedLines (unlines setTexts) := by
    rw [trimmedLines, trimmedLines, lines_unlines nonempty single, map_trim_of_set set]
  have keeps : KeepsLines snippet.toList (toPython snippet).toList := by
    rw [outcome]
    exact KeepsLines.of_trimmedLines_eq (exists_lines_trim (unlines setTexts)) sameLines
  refine ⟨?_, keeps.visibleLines_eq, keeps⟩
  rw [Rendition.remarks_ofSnippet, quiet.respelled_eq, looped, quiet.convertReads_eq,
    quiet.convertLoops_eq, quiet.convertBranches_eq, quiet.convertPrints_eq, layout]
  rfl

theorem Quiet.keepsLines_toPython_sample :
    let snippet := "\n  if x == 2:  \n y = [x]\t\n\nelse:\n      z\n  = 'b'\n\n"
    Quiet snippet.toList ∧ (Rendition.ofSnippet snippet.toList).remarks = [] ∧
      visibleLines (toPython snippet).toList = visibleLines snippet.toList ∧
      KeepsLines snippet.toList (toPython snippet).toList := by
  intro snippet
  have quiet : Quiet snippet.toList :=
    { noReader := by decide +kernel
      noRead := by decide +kernel
      noLoop := by decide +kernel
      noElseIf := by decide +kernel
      noIf := by decide +kernel
      noElse := by decide +kernel
      noPrint := by decide +kernel
      noClass := by decide +kernel
      noMain := by decide +kernel
      noDeclaration := by decide +kernel
      noSpelling := by decide +kernel
      braceFree := ⟨by decide, by decide⟩
      noHidden := by decide +kernel }
  exact ⟨quiet, quiet.keepsLines_toPython⟩

end Offside
