import Offside.Proofs.Layout.Delimiters
import Offside.Proofs.Spelling
import Offside.Proofs.Text.Framing

/-!
# Spelling a whole text at once

The spelling pass goes from line to line. Its steps can as well be carried out one after the
other over the whole text: the fixed spellings wherever they occur, and then the headers of
classes, the headers of entry points and the declarations wherever a line starts. Nothing that is
recognised in this way reaches across a newline, and no step moves the start of a line for the
steps behind it. Both ways therefore lead to the same text, and the pass can be applied to two
parts of a text separately wherever a newline stands between them.
-/

namespace Offside

/-! ## Constructs at the start of a line -/

/-- Whether a line starts behind `before`. -/
def opensLine (before : Option Char) : Bool :=
  before.all fun char => char = '\n'

/-- Constructs that stand at the start of a line. -/
def Recognizer.atLineStart {α : Type} (start? : Text → Option (α × Text)) : Recognizer α where
  at? before text := if opensLine before then start? text else none

/-- Headers of classes at the start of a line. -/
def classHeader : Recognizer Unit :=
  .atLineStart fun text => (afterClass? text).map fun rest => ((), rest)

/-- What is left behind the header of an entry point. Its parentheses stand on one line. -/
def behindMain? (text : Text) : Option Text := do
  let text := skipModifier "public" (text.dropWhile isTabOrSpace)
  let text ← expect? "static".toList text
  let text ← skipSome? isTabOrSpace text
  let text ← expect? "void".toList text
  let text ← skipSome? isTabOrSpace text
  let text ← expect? "main".toList text
  let text ← expect? "(".toList (text.dropWhile isTabOrSpace)
  expect? ")".toList (text.dropWhile fun char => char ≠ ')' && char ≠ '\n')

/-- Headers of entry points at the start of a line. -/
def entryPoint : Recognizer Unit :=
  .atLineStart fun text => (behindMain? text).map fun rest => ((), rest)

/-- Whether a character can be part of a declaration. -/
def isDeclarationChar (char : Char) : Bool :=
  char ≠ ';' && char ≠ '\n'

/-- A declaration and what is left behind it, and behind its terminator if there is one. -/
def declaration? (text : Text) : Option (Declaration × Text) := do
  let indent := text.takeWhile isTabOrSpace
  let behind ← behindType? (skipModifier "final" (text.dropWhile isTabOrSpace))
  let clause := behind.takeWhile isDeclarationChar
  guard (2 ≤ clause.length)
  let rest := behind.dropWhile isDeclarationChar
  return ({ indent, declarators := trimEnd (clause.dropWhile isTabOrSpace) },
    (expect? ";".toList rest).getD rest)

/-- Declarations at the start of a line. -/
def lineDeclaration : Recognizer Declaration :=
  .atLineStart declaration?

/-- Respell a whole text, one step after the other. -/
def spellThroughout (text : Text) : Text :=
  let text := respell text
  let text := classHeader.replaceAll (fun _ => []) text
  let text := entryPoint.replaceAll (fun _ => []) text
  lineDeclaration.replaceAll Declaration.render text

/-! ## From line to line -/

section LineStart

variable {α : Type} {start? : Text → Option (α × Text)}

/-- What stands at the start of a line takes something off it, and ends in the line. -/
structure StaysInLine (start? : Text → Option (α × Text)) : Prop where
  takes : ∀ text value rest, start? text = some (value, rest) →
    ∃ matched, matched ≠ [] ∧ text = matched ++ rest
  stops : ∀ line rest, start? (line ++ '\n' :: rest) =
    (start? line).map fun found => (found.1, found.2 ++ '\n' :: rest)

/-- Replace what stands at the start of a line. -/
def replaceStart (start? : Text → Option (α × Text)) (replacement : α → Text) (line : Text) : Text :=
  ((start? line).map fun found => replacement found.1 ++ found.2).getD line

theorem Recognizer.atLineStart_at? (start? : Text → Option (α × Text)) (before : Option Char)
    (text : Text) :
    (atLineStart start?).at? before text = if opensLine before then start? text else none := rfl

/-- Nothing starts in the middle of a line. -/
theorem Recognizer.atLineStart_silent {stretch : Text} (single : '\n' ∉ stretch) {before : Char}
    (inside : before ≠ '\n') (rest : Text) :
    (atLineStart start?).Silent rest (some before) stretch := by
  induction stretch generalizing before with
  | nil => exact .nil
  | cons char stretch ih =>
      simp only [List.mem_cons, not_or] at single
      exact .cons (by simp [atLineStart_at?, opensLine, inside]) (ih single.2 (Ne.symm single.1))

namespace StaysInLine

variable (stays : StaysInLine start?)
include stays

theorem start?_nil : start? [] = none := by
  cases found : start? [] with
  | none => rfl
  | some result =>
      obtain ⟨matched, nonempty, split⟩ := stays.takes [] result.1 result.2 found
      exact absurd (List.append_eq_nil_iff.1 split.symm).1 nonempty

theorem start?_newline (rest : Text) : start? ('\n' :: rest) = none := by
  have stopped := stays.stops [] rest
  simpa [stays.start?_nil] using stopped

theorem start?_append {line rest : Text} (closes : ClosesLine rest) :
    start? (line ++ rest) = (start? line).map fun found => (found.1, found.2 ++ rest) := by
  cases rest with
  | nil => simp
  | cons char rest =>
      rw [closes char rfl]
      exact stays.stops line rest

theorem proper : (Recognizer.atLineStart start?).Proper := by
  intro before text value rest found
  rw [Recognizer.atLineStart_at?, Option.ite_none_right_eq_some] at found
  exact stays.takes text value rest found.2

/-- A line is settled by replacing what stands at its start. -/
theorem settles_line {replacement : α → Text} {line rest : Text} (single : '\n' ∉ line)
    (closes : ClosesLine rest) {before : Option Char} (opens : opensLine before = true) :
    (Recognizer.atLineStart start?).Settles (fun value => .replace (replacement value)) rest before
      line (replaceStart start? replacement line) := by
  have atStart : (Recognizer.atLineStart start?).at? before (line ++ rest) =
      (start? line).map fun found => (found.1, found.2 ++ rest) := by
    rw [Recognizer.atLineStart_at?, if_pos opens, stays.start?_append closes]
  cases found : start? line with
  | none =>
      have unchanged : replaceStart start? replacement line = line := by simp [replaceStart, found]
      rw [unchanged]
      cases line with
      | nil => exact .nil
      | cons char line =>
          simp only [List.mem_cons, not_or] at single
          refine .gap ?_ (Recognizer.atLineStart_silent single.2 (Ne.symm single.1) rest).settles
          simpa [found] using atStart
  | some result =>
      obtain ⟨value, left⟩ := result
      obtain ⟨matched, nonempty, rfl⟩ := stays.takes line value left found
      have changed : replaceStart start? replacement (matched ++ left) =
          replacement value ++ left := by simp [replaceStart, found]
      rw [List.mem_append, not_or] at single
      rw [changed]
      refine .hit nonempty ?_ rfl ?_
      · simpa [found] using atStart
      · -- The rest of the line stands behind the last character of the construct.
        have last := List.getLast?_eq_some_getLast nonempty
        have behind : passed before matched = some (matched.getLast nonempty) := by
          simp [passed_eq, last]
        rw [behind]
        apply (Recognizer.atLineStart_silent single.2 _ rest).settles
        intro newline
        exact single.1 (newline ▸ List.getLast_mem nonempty)

theorem settles_unlines (replacement : α → Text) {texts : List Text}
    (single : ∀ text ∈ texts, '\n' ∉ text) {before : Option Char} (opens : opensLine before = true) :
    (Recognizer.atLineStart start?).Settles (fun value => .replace (replacement value)) [] before
      (unlines texts) (unlines (texts.map (replaceStart start? replacement))) := by
  induction texts generalizing before with
  | nil => exact .nil
  | cons text others ih =>
      have here := single text List.mem_cons_self
      cases others with
      | nil => exact stays.settles_line here closesLine_nil opens
      | cons next rest =>
          have newLine : opensLine (some '\n') = true := rfl
          have tail := ih (fun other member => single other (List.mem_cons_of_mem text member))
            newLine
          rw [List.map_cons, List.map_cons, unlines_cons_cons, unlines_cons_cons]
          refine .append (stays.settles_line here (closesLine_newline _) opens) (.gap ?_ tail)
          simp [Recognizer.atLineStart_at?, stays.start?_newline]

/-- Replacing the constructs at line starts goes from line to line. -/
theorem replaceAll_eq (replacement : α → Text) (text : Text) :
    (Recognizer.atLineStart start?).replaceAll replacement text =
      unlines ((lines text).map (replaceStart start? replacement)) := by
  have single : ∀ line ∈ lines text, '\n' ∉ line := fun _ => newline_notMem_of_mem_lines
  have opens : opensLine none = true := rfl
  apply Recognizer.Settles.replaceAll stays.proper
  have settled := stays.settles_unlines replacement single opens
  rwa [unlines_lines] at settled

end StaysInLine

end LineStart

/-! ## The constructs that are replaced -/

section Newline

variable (text rest : Text)

theorem word?_append_newline :
    word? (text ++ '\n' :: rest) =
      (word? text).map fun found => (found.1, found.2 ++ '\n' :: rest) := by
  have outside : isWordChar '\n' = false := by decide
  rw [word?, word?, takeWhile_append_cons outside, dropWhile_append_cons outside]
  cases text.takeWhile isWordChar <;> rfl

theorem skipModifier_append_newline {modifier : String} (single : '\n' ∉ modifier.toList) :
    skipModifier modifier (text ++ '\n' :: rest) = skipModifier modifier text ++ '\n' :: rest := by
  have behind : (expect? modifier.toList (text ++ '\n' :: rest) >>= skipSome? isTabOrSpace) =
      (expect? modifier.toList text >>= skipSome? isTabOrSpace).map (· ++ '\n' :: rest) := by
    rw [expect?_append_cons single]
    exact map_bind_eq_bind_map fun _ => skipSome?_append_cons (by decide) _ _
  rw [skipModifier, skipModifier, behind]
  cases expect? modifier.toList text >>= skipSome? isTabOrSpace <;> rfl

theorem afterClass?_append_newline :
    afterClass? (text ++ '\n' :: rest) = (afterClass? text).map (· ++ '\n' :: rest) := by
  rw [afterClass?_eq, afterClass?_eq, dropWhile_append_cons (by decide),
    skipModifier_append_newline _ _ (by decide), skipModifier_append_newline _ _ (by decide),
    expect?_append_cons (by decide)]
  refine map_bind_eq_bind_map fun behindClass => ?_
  rw [skipSome?_append_cons (by decide)]
  refine map_bind_eq_bind_map fun atName => ?_
  rw [word?_append_newline]
  exact map_bind_eq_bind_map fun _ => rfl

theorem behindMain?_eq :
    behindMain? text =
      (expect? "static".toList (skipModifier "public" (text.dropWhile isTabOrSpace))).bind fun text =>
      (skipSome? isTabOrSpace text).bind fun text =>
      (expect? "void".toList text).bind fun text =>
      (skipSome? isTabOrSpace text).bind fun text =>
      (expect? "main".toList text).bind fun text =>
      (expect? "(".toList (text.dropWhile isTabOrSpace)).bind fun text =>
      expect? ")".toList (text.dropWhile fun char => char ≠ ')' && char ≠ '\n') := rfl

theorem behindMain?_append_newline :
    behindMain? (text ++ '\n' :: rest) = (behindMain? text).map (· ++ '\n' :: rest) := by
  rw [behindMain?_eq, behindMain?_eq, dropWhile_append_cons (by decide),
    skipModifier_append_newline _ _ (by decide), expect?_append_cons (by decide)]
  refine map_bind_eq_bind_map fun behindStatic => ?_
  rw [skipSome?_append_cons (by decide)]
  refine map_bind_eq_bind_map fun atVoid => ?_
  rw [expect?_append_cons (by decide)]
  refine map_bind_eq_bind_map fun behindVoid => ?_
  rw [skipSome?_append_cons (by decide)]
  refine map_bind_eq_bind_map fun atMain => ?_
  rw [expect?_append_cons (by decide)]
  refine map_bind_eq_bind_map fun behindName => ?_
  rw [dropWhile_append_cons (by decide), expect?_append_cons (by decide)]
  refine map_bind_eq_bind_map fun behindParen => ?_
  rw [dropWhile_append_cons (by decide), expect?_append_cons (by decide)]

theorem behindType?_append_newline :
    behindType? (text ++ '\n' :: rest) = (behindType? text).map (· ++ '\n' :: rest) := by
  have single : ∀ type ∈ declaredTypes, '\n' ∉ type.toList := by decide
  rw [behindType?, behindType?, List.map_findSome?, ← List.head?_filterMap, ← List.head?_filterMap]
  congr 1
  apply List.filterMap_congr
  intro type member
  rw [expect?_append_cons (single type member)]
  refine map_bind_eq_bind_map fun behind => ?_
  cases behind with
  | nil => rfl
  | cons char behind => cases blank : isTabOrSpace char <;> simp [blank]

theorem declaration?_eq :
    declaration? text =
      (behindType? (skipModifier "final" (text.dropWhile isTabOrSpace))).bind fun behind =>
      Option.bind (guard (2 ≤ (behind.takeWhile isDeclarationChar).length)) fun _ =>
      some ({ indent := text.takeWhile isTabOrSpace,
              declarators :=
                trimEnd ((behind.takeWhile isDeclarationChar).dropWhile isTabOrSpace) },
        (expect? ";".toList (behind.dropWhile isDeclarationChar)).getD
          (behind.dropWhile isDeclarationChar)) := rfl

theorem declaration?_append_newline :
    declaration? (text ++ '\n' :: rest) =
      (declaration? text).map fun found => (found.1, found.2 ++ '\n' :: rest) := by
  rw [declaration?_eq, declaration?_eq, takeWhile_append_cons (by decide),
    dropWhile_append_cons (by decide), skipModifier_append_newline _ _ (by decide),
    behindType?_append_newline]
  refine map_bind_eq_bind_map fun behind => ?_
  rw [takeWhile_append_cons (by decide), dropWhile_append_cons (by decide),
    expect?_append_cons (by decide), Option.map_bind]
  refine Option.bind_congr fun _ _ => ?_
  cases expect? ";".toList (behind.dropWhile isDeclarationChar) <;> rfl

end Newline

/-- What is left behind a part of a text is left behind something. -/
theorem exists_matched {text part behind rest : Text} (nonempty : part ≠ [])
    (here : part ++ behind <:+ text) (left : rest <:+ behind) :
    ∃ matched, matched ≠ [] ∧ text = matched ++ rest := by
  obtain ⟨front, rfl⟩ := here
  obtain ⟨taken, rfl⟩ := left
  exact ⟨front ++ part ++ taken, by simp [nonempty], by simp⟩

theorem classHeader_staysInLine :
    StaysInLine fun text => (afterClass? text).map fun rest => ((), rest) where
  takes text value rest found := by
    obtain ⟨left, read, result⟩ := Option.map_eq_some_iff.1 found
    cases result
    rw [afterClass?_eq] at read
    simp only [Option.bind_eq_some_iff] at read
    obtain ⟨behindClass, classFound, atName, skipped, ⟨name, behindName⟩, nameFound, result⟩ := read
    cases result
    have here : "class".toList ++ behindClass <:+ text := by
      rw [← expect?_eq_some.1 classFound]
      exact (skipModifier_suffix _ _).trans
        ((skipModifier_suffix _ _).trans (List.dropWhile_suffix isTabOrSpace))
    exact exists_matched (by decide) here ((word?_suffix nameFound).trans (skipSome?_suffix skipped))
  stops line rest := by
    rw [afterClass?_append_newline]
    cases afterClass? line <;> rfl

theorem entryPoint_staysInLine :
    StaysInLine fun text => (behindMain? text).map fun rest => ((), rest) where
  takes text value rest found := by
    obtain ⟨left, read, result⟩ := Option.map_eq_some_iff.1 found
    cases result
    rw [behindMain?_eq] at read
    simp only [Option.bind_eq_some_iff] at read
    obtain ⟨behindStatic, staticFound, atVoid, toVoid, behindVoid, voidFound, atMain, toMain,
      behindMain, mainFound, behindParen, parenFound, closeFound⟩ := read
    have here : "static".toList ++ behindStatic <:+ text := by
      rw [← expect?_eq_some.1 staticFound]
      exact (skipModifier_suffix _ _).trans (List.dropWhile_suffix isTabOrSpace)
    apply exists_matched (by decide) here
    calc rest
      _ <:+ behindParen := (expect?_suffix closeFound).trans (List.dropWhile_suffix _)
      _ <:+ behindMain := (expect?_suffix parenFound).trans (List.dropWhile_suffix isTabOrSpace)
      _ <:+ behindVoid := (expect?_suffix mainFound).trans (skipSome?_suffix toMain)
      _ <:+ behindStatic := (expect?_suffix voidFound).trans (skipSome?_suffix toVoid)
  stops line rest := by
    rw [behindMain?_append_newline]
    cases behindMain? line <;> rfl

theorem declaration?_staysInLine : StaysInLine declaration? where
  takes text value rest found := by
    rw [declaration?_eq] at found
    simp only [Option.bind_eq_some_iff, Option.guard_eq_some'] at found
    obtain ⟨behind, behindFound, _, long, result⟩ := found
    cases result
    have nonempty : behind.takeWhile isDeclarationChar ≠ [] := by
      intro empty
      simp [empty] at long
    have here : behind.takeWhile isDeclarationChar ++ behind.dropWhile isDeclarationChar <:+
        text := by
      rw [List.takeWhile_append_dropWhile]
      exact (behindType?_suffix behindFound).trans
        ((skipModifier_suffix _ _).trans (List.dropWhile_suffix isTabOrSpace))
    apply exists_matched nonempty here
    cases terminator : expect? ";".toList (behind.dropWhile isDeclarationChar) with
    | none => exact List.suffix_rfl
    | some left => exact expect?_suffix terminator
  stops := declaration?_append_newline

/-! ## One line -/

section Line

variable {line : Text}

theorem replaceStart_class :
    replaceStart (fun text => (afterClass? text).map fun rest => ((), rest)) (fun _ => []) line =
      withoutClass line := by
  rw [replaceStart, withoutClass]
  cases afterClass? line <;> rfl

/-- Without a newline in sight, only the parenthesis is looked for. -/
theorem behindMain?_eq_afterMain? (single : '\n' ∉ line) : behindMain? line = afterMain? line := by
  have same : ∀ part : Text, part <:+ line →
      (part.dropWhile fun char => char ≠ ')' && char ≠ '\n') = part.dropWhile (· ≠ ')') := by
    intro part inLine
    induction part with
    | nil => rfl
    | cons char part ih =>
        have noNewline : char ≠ '\n' := by
          rintro rfl
          exact single (inLine.subset List.mem_cons_self)
        have tail := ih ((List.suffix_cons char part).trans inLine)
        by_cases closing : char = ')' <;> simp_all
  rw [behindMain?_eq, afterMain?_eq]
  refine Option.bind_congr fun behindStatic staticFound => ?_
  refine Option.bind_congr fun atVoid toVoid => ?_
  refine Option.bind_congr fun behindVoid voidFound => ?_
  refine Option.bind_congr fun atMain toMain => ?_
  refine Option.bind_congr fun behindMain mainFound => ?_
  refine Option.bind_congr fun behindParen parenFound => ?_
  rw [same]
  calc behindParen
    _ <:+ behindMain := (expect?_suffix parenFound).trans (List.dropWhile_suffix isTabOrSpace)
    _ <:+ behindVoid := (expect?_suffix mainFound).trans (skipSome?_suffix toMain)
    _ <:+ behindStatic := (expect?_suffix voidFound).trans (skipSome?_suffix toVoid)
    _ <:+ skipModifier "public" (line.dropWhile isTabOrSpace) := expect?_suffix staticFound
    _ <:+ line := (skipModifier_suffix _ _).trans (List.dropWhile_suffix isTabOrSpace)

theorem replaceStart_main (single : '\n' ∉ line) :
    replaceStart (fun text => (behindMain? text).map fun rest => ((), rest)) (fun _ => []) line =
      withoutMain line := by
  rw [replaceStart, withoutMain, behindMain?_eq_afterMain? single]
  cases afterMain? line <;> rfl

/-- Without a terminator, a declaration goes on to the end of its line. -/
theorem replaceStart_declaration (single : '\n' ∉ line) (unended : ';' ∉ line) :
    replaceStart declaration? Declaration.render line = respellDeclaration line := by
  have whole : ∀ behind : Text, behind <:+ line → ∀ char ∈ behind, isDeclarationChar char = true := by
    intro behind inLine char member
    have noTerminator : char ≠ ';' := by
      rintro rfl
      exact unended (inLine.subset member)
    have noNewline : char ≠ '\n' := by
      rintro rfl
      exact single (inLine.subset member)
    simp [isDeclarationChar, noTerminator, noNewline]
  have read : declaration? line = (Declaration.ofLine? line).map fun found => (found, []) := by
    rw [declaration?_eq, Declaration.ofLine?_eq, Option.map_bind]
    refine Option.bind_congr fun behind behindFound => ?_
    have inside := whole behind ((behindType?_suffix behindFound).trans
      ((skipModifier_suffix _ _).trans (List.dropWhile_suffix isTabOrSpace)))
    have nothingBehind : ∀ char, ([] : Text).head? = some char → isDeclarationChar char = false := by
      simp
    have taken := takeWhile_append_of_stop inside nothingBehind
    have left := dropWhile_append_of_stop inside nothingBehind
    rw [List.append_nil] at taken left
    rw [taken, left, Function.comp, Option.map_bind]
    rfl
  rw [replaceStart, respellDeclaration, read]
  cases Declaration.ofLine? line <;> simp

end Line

/-! ## Whole texts -/

/-- A function that can be applied on both sides of a newline can be applied line by line. -/
theorem map_unlines {respelling : Text → Text}
    (apart : ∀ left right,
      respelling (left ++ '\n' :: right) = respelling left ++ '\n' :: respelling right)
    {texts : List Text} (nonempty : texts ≠ []) :
    respelling (unlines texts) = unlines (texts.map respelling) := by
  induction texts with
  | nil => exact absurd rfl nonempty
  | cons text others ih =>
      cases others with
      | nil => rfl
      | cons next rest =>
          rw [unlines_cons_cons, apart, ih (List.cons_ne_nil next rest)]
          simp

theorem newline_notMem_respell {line : Text} (single : '\n' ∉ line) : '\n' ∉ respell line :=
  notMem_respellBy (by decide) single

/-- Spelling the whole text step by step leads to the same text as spelling every line. -/
theorem convertSpelling_eq_spellThroughout (text : Text) :
    convertSpelling text = spellThroughout text := by
  have single : ∀ line ∈ lines text, '\n' ∉ line := fun _ => newline_notMem_of_mem_lines
  have filled : ∀ step : Text → Text, (lines text).map step ≠ [] := by
    intro step
    simpa using lines_ne_nil text
  -- Up to the declarations no step brings in a newline, so the lines stay apart.
  have respelled : ∀ line ∈ lines text, '\n' ∉ respell line := fun line member =>
    newline_notMem_respell (single line member)
  have classless : ∀ line ∈ lines text, '\n' ∉ withoutClass (respell line) := fun line member =>
    fun newline => respelled line member ((withoutClass_suffix _).subset newline)
  have mainless : ∀ line ∈ lines text, '\n' ∉ withoutMain (withoutClass (respell line)) :=
    fun line member newline => classless line member ((withoutMain_suffix _).subset newline)
  have cut : ∀ step : Text → Text, (∀ line ∈ lines text, '\n' ∉ step line) →
      lines (unlines ((lines text).map step)) = (lines text).map step := by
    intro step stays
    apply lines_unlines (filled step)
    simpa using stays
  have first : respell text = unlines ((lines text).map respell) := by
    have joined := map_unlines
      (respellBy_append_cons spellings_ne_nil newline_notMem_spellings) (lines_ne_nil text)
    rwa [unlines_lines] at joined
  have second : classHeader.replaceAll (fun _ => []) (respell text) =
      unlines ((lines text).map fun line => withoutClass (respell line)) := by
    rw [classHeader, classHeader_staysInLine.replaceAll_eq, first, cut respell respelled,
      List.map_map]
    simp only [Function.comp_def, replaceStart_class]
  have third : entryPoint.replaceAll (fun _ => []) (classHeader.replaceAll (fun _ => [])
      (respell text)) =
        unlines ((lines text).map fun line => withoutMain (withoutClass (respell line))) := by
    rw [entryPoint, entryPoint_staysInLine.replaceAll_eq, second, cut _ classless, List.map_map]
    apply congrArg unlines
    apply List.map_congr_left
    intro line member
    rw [Function.comp, replaceStart_main (classless line member)]
  rw [spellThroughout, lineDeclaration, declaration?_staysInLine.replaceAll_eq, third,
    cut _ mainless, List.map_map, convertSpelling]
  apply congrArg unlines
  apply List.map_congr_left
  intro line member
  have unended : ';' ∉ withoutMain (withoutClass (respell line)) := fun semicolon =>
    semicolon_notMem_respell line
      (((withoutMain_suffix _).trans (withoutClass_suffix (respell line))).subset semicolon)
  rw [respellLine_eq, Function.comp, replaceStart_declaration (mainless line member) unended]

/-- The pass carries out its steps over the whole text, and no line has an effect on another one:
the two sides of a newline are spelled each by itself. -/
theorem convertSpelling_append_newline (left right : Text) :
    (∀ text, convertSpelling text = spellThroughout text) ∧
      convertSpelling (left ++ '\n' :: right) =
        convertSpelling left ++ '\n' :: convertSpelling right := by
  refine ⟨convertSpelling_eq_spellThroughout, ?_⟩
  have leftFilled : (lines left).map respellLine ≠ [] := by simpa using lines_ne_nil left
  have rightFilled : (lines right).map respellLine ≠ [] := by simpa using lines_ne_nil right
  rw [convertSpelling, lines_append_newline, List.map_append,
    unlines_append leftFilled rightFilled]
  rfl

end Offside
