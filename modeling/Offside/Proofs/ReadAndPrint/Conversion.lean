import Offside.Proofs.ReadAndPrint.Spelling
import Offside.Proofs.WholeWords

/-!
# The name of a variable that is read and printed

A variable that is named like the next part of a branch opens a block. A variable with a built-in
name gets a new ending. The ending is put behind every word of that name, so that a variable with
the name of one of the two functions that the lines call takes the call along.
-/

namespace Offside

/-! ## Layout -/

/-- What the second line is indented by. -/
def blockIndent (name : Text) : Text :=
  if name = "elif".toList then levelIndent.toList else []

/-- Two texts are cut alike at the first of their separators. -/
theorem append_cons_inj_of_apart {separator : Char} {left other right behind : Text}
    (noLeft : separator ∉ left) (noOther : separator ∉ other)
    (same : left ++ separator :: right = other ++ separator :: behind) :
    left = other ∧ right = behind := by
  induction left generalizing other with
  | nil =>
      cases other with
      | nil => exact ⟨rfl, (List.cons.inj same).2⟩
      | cons char other =>
          exact absurd ((List.cons.inj same).1 ▸ List.mem_cons_self) noOther
  | cons char left ih =>
      cases other with
      | nil => exact absurd ((List.cons.inj same).1 ▸ List.mem_cons_self) noLeft
      | cons next other =>
          obtain ⟨rfl, sameRest⟩ := List.cons.inj same
          obtain ⟨rfl, behindSame⟩ := ih (List.not_mem_of_not_mem_cons noLeft)
            (List.not_mem_of_not_mem_cons noOther) sameRest
          exact ⟨rfl, behindSame⟩

/-- The shape of a line without blanks around it, braces and colons. -/
theorem LineShape.ofLine_of_isToken {line : Text} (isToken : IsToken line)
    (missing : ∀ mark ∈ ['\x7b', '\x7d', ':'], mark ∉ line) :
    LineShape.ofLine line = if continuesBranch line then .branch line 0 else .statement line 0 := by
  have free : BraceFree line := ⟨missing _ (by decide), missing _ (by decide)⟩
  have trimmed := trim_eq_self isToken.starts isToken.ends
  have filled : trim line ≠ [] := by
    rw [trimmed]
    exact isToken.nonempty
  have noColon : line.getLast? ≠ some ':' := fun last =>
    missing ':' (by decide) (List.mem_of_getLast? last)
  rw [ofLine_of_braceFree free filled, trimmed, ofBody, if_neg noColon]

theorem allBlank_blockIndent (name : Text) : AllBlank (blockIndent name) := by
  rw [blockIndent]
  split <;> decide

section Layout

variable (name : Identifier)

theorem readCall_eq_append_cons (target : Text) :
    readCall target "input".toList = target ++ ' ' :: "= int(input())".toList := rfl

theorem continuesBranch_readCall :
    continuesBranch (readCall name.text "input".toList) = true ↔ name.text = "elif".toList := by
  have noElse : ¬"else:".toList <+: readCall name.text "input".toList := fun starts =>
    notMem_readCall name (by decide) (by decide) (starts.subset (by decide : ':' ∈ "else:".toList))
  have elif : "elif ".toList <+: readCall name.text "input".toList ↔
      name.text = "elif".toList := by
    rw [readCall_eq_append_cons]
    constructor
    · rintro ⟨rest, whole⟩
      have parted : "elif".toList ++ ' ' :: rest =
          name.text ++ ' ' :: "= int(input())".toList := whole
      exact (append_cons_inj_of_apart (by decide) (name.notMem (by decide)) parted).1.symm
    · intro same
      rw [same]
      exact ⟨"= int(input())".toList, rfl⟩
  rw [continuesBranch, Bool.or_eq_true, List.isPrefixOf_iff_prefix, List.isPrefixOf_iff_prefix,
    elif]
  exact or_iff_left noElse

theorem ofLine_readCall :
    LineShape.ofLine (readCall name.text "input".toList) =
      if name.text = "elif".toList then .branch (readCall name.text "input".toList) 0
      else .statement (readCall name.text "input".toList) 0 := by
  have missing : ∀ mark ∈ ['\x7b', '\x7d', ':'], mark ∉ readCall name.text "input".toList := by
    have outside : ∀ mark ∈ ['\x7b', '\x7d', ':'], isIdentifierChar mark = false ∧
        mark ∉ readCall [] "input".toList := by decide
    exact fun mark listed => notMem_readCall name (outside mark listed).1 (outside mark listed).2
  rw [LineShape.ofLine_of_isToken (isToken_readCall name "input".toList) missing]
  exact if_congr (continuesBranch_readCall name) rfl rfl

theorem isToken_printCall : IsToken (call "print".toList name.text) where
  nonempty := List.cons_ne_nil _ _
  starts := startsSolid_cons (by decide)
  ends := by
    have split : call "print".toList name.text = ("print".toList ++ '(' :: name.text) ++ [')'] := by
      simp [call]
    rw [split]
    exact endsSolid_concat (by decide)

theorem ofLine_printCall :
    LineShape.ofLine (call "print".toList name.text) =
      .statement (call "print".toList name.text) 0 := by
  have missing : ∀ mark ∈ ['\x7b', '\x7d', ':'], mark ∉ call "print".toList name.text := by
    have outside : ∀ mark ∈ ['\x7b', '\x7d', ':'], isIdentifierChar mark = false ∧
        mark ∉ call "print".toList [] := by decide
    exact fun mark listed => notMem_call name (outside mark listed).1 (outside mark listed).2
  rw [LineShape.ofLine_of_isToken (isToken_printCall name) missing]
  rfl

/-- Behind a line that is taken for the next part of a branch a block is open. -/
theorem convertLayout_outputLines :
    (convertLayout (outputLines [] name.text "input".toList "print".toList)).text =
      outputLines (blockIndent name.text) name.text "input".toList "print".toList := by
  have single : ∀ line ∈ [readCall name.text "input".toList, call "print".toList name.text],
      '\n' ∉ line := by
    intro line member
    rcases List.mem_pair.1 member with rfl | rfl
    · exact notMem_readCall name (by decide) (by decide)
    · exact notMem_call name (by decide) (by decide)
  rw [convertLayout, outputLines, List.nil_append, lines_unlines (List.cons_ne_nil _ _) single]
  simp only [Layout.ofLines, Layout.ofLinesFrom, ofLine_readCall, ofLine_printCall, blockIndent]
  by_cases isBranch : name.text = "elif".toList
  · rw [if_pos isBranch, if_pos isBranch]
    rfl
  · rw [if_neg isBranch, if_neg isBranch]
    rfl

end Layout

/-! ## Naming -/

/-- The name that a variable gets. -/
def variableName (name : Text) : Text :=
  renamedAmong (builtinNames.map String.toList) name

/-- What a word becomes beside a variable. -/
def wordBeside (name word : Text) : Text :=
  if word = name then variableName name else word

/-- In front of the only equals sign there is one name. -/
theorem isAssigned_iff (name : Identifier) {rest : Text} (noEquals : '=' ∉ rest) (word : Text) :
    IsAssigned word (name.text ++ ' ' :: '=' :: rest) ↔ word = name.text := by
  have noSign : '=' ∉ name.text ++ [' '] := by
    have notName : '=' ∉ name.text := name.notMem (by decide)
    simp [notName]
  constructor
  · rintro ⟨front, blanks, behind, between, blank, _, split⟩
    have parted : (name.text ++ [' ']) ++ '=' :: rest =
        (front ++ (word ++ blanks)) ++ '=' :: behind := by
      simpa using split
    have before := ((List.append_cons_inj_of_notMem noSign noEquals).1 parted).1
    have whole : name.text = front ++ word := by
      have ends : EndsSolid (front ++ word) :=
        between.isWord.endsSolid.append between.isWord.nonempty
      have trimmed := congrArg trimEnd before
      rwa [trimEnd_append (by decide), name.isToken.ends.trimEnd_eq, ← List.append_assoc,
        trimEnd_append blank, ends.trimEnd_eq] at trimmed
    cases front with
    | nil => exact whole.symm
    | cons char front =>
        have inside : ∀ other ∈ char :: front, isWordChar other = true := fun other member =>
          name.isWord.inside other (whole ▸ List.mem_append_left word member)
        have closed := opensWord_passed_eq_false (List.cons_ne_nil char front) inside none
        rw [← opensWord_getLast?, between.opens] at closed
        cases closed
  · rintro rfl
    have single : rest.head? ≠ some '=' := fun first => noEquals (List.mem_of_head? first)
    exact ⟨[], [' '], rest, ⟨name.isWord, rfl, rfl⟩, by decide, single, rfl⟩

section Naming

variable (name : Identifier)

theorem convertNames_outputLines {indent : Text} (blank : AllBlank indent) :
    (convertNames (outputLines indent name.text "input".toList "print".toList)).text =
      mapWords (wordBeside name.text)
        (outputLines indent name.text "input".toList "print".toList) := by
  have split : outputLines indent name.text "input".toList "print".toList =
      name.text ++ ' ' :: '=' :: (" int(input())".toList ++
        '\n' :: (indent ++ call "print".toList name.text)) := by
    rw [outputLines, unlines_cons_cons, readCall_eq_append_cons, List.append_assoc]
    rfl
  have noEquals : '=' ∉ " int(input())".toList ++
      '\n' :: (indent ++ call "print".toList name.text) := by
    have noIndent : '=' ∉ indent := fun member => absurd (blank '=' member) (by decide)
    have noCall := notMem_call name (by decide : isIdentifierChar '=' = false) (by decide)
    have noRead : '=' ∉ " int(input())".toList := by decide
    simp only [List.mem_append, List.mem_cons, noRead, noIndent, noCall, or_false, false_or]
    decide
  have hidden : ∀ word, word ∈
      hiddenBuiltins (outputLines indent name.text "input".toList "print".toList) ↔
        word ∈ builtinNames.map String.toList ∧ word = name.text := by
    intro word
    rw [mem_hiddenBuiltins_iff, split, isAssigned_iff name noEquals]
  rw [convertNames_eq_mapWords]
  apply mapWords_congr
  intro word _
  simp only [renamedAmong, List.contains_iff_mem, hidden, wordBeside, variableName]
  by_cases same : word = name.text
  · simp only [same, and_true, if_true]
  · simp only [same, and_false, if_false]

theorem mapWords_readCall (image : Text → Text) {function : Text} (isFunction : IsWord function) :
    mapWords image (readCall name.text function) =
      image name.text ++ (" = ".toList ++ (image "int".toList ++ ("(".toList ++
        (image function ++ "())".toList)))) := by
  have isInt : IsWord "int".toList := ⟨by decide, by decide⟩
  have mark : ∀ char ∈ " =()".toList, ∀ rest,
      mapWords image (char :: rest) = char :: mapWords image rest := by
    have outside : ∀ char ∈ " =()".toList, isWordChar char = false := by decide
    exact fun char listed => mapWords_cons_of_outside image (outside char listed)
  have space := mark ' ' (by decide)
  have equals := mark '=' (by decide)
  have opening := mark '(' (by decide)
  have closing := mark ')' (by decide)
  calc mapWords image (readCall name.text function)
    _ = mapWords image (name.text ++ (' ' :: '=' :: ' ' :: ("int".toList ++
          ('(' :: (function ++ ('(' :: ')' :: [')'])))))) := rfl
    _ = _ := by
      rw [mapWords_append_of_isWord image name.isWord rfl, space, equals, space,
        mapWords_append_of_isWord image isInt rfl, opening,
        mapWords_append_of_isWord image isFunction rfl, opening, closing, closing, mapWords_nil]
      rfl

theorem mapWords_call (image : Text → Text) {function : Text} (isFunction : IsWord function) :
    mapWords image (call function name.text) = call (image function) (image name.text) := by
  rw [call, mapWords_append_of_isWord image isFunction rfl,
    mapWords_cons_of_outside image (by decide), mapWords_append_of_isWord image name.isWord rfl,
    mapWords_cons_of_outside image (by decide), mapWords_nil]
  rfl

theorem wordBeside_self (name : Text) : wordBeside name name = variableName name :=
  if_pos rfl

/-- The type that converts what is read is no built-in name of the table. -/
theorem wordBeside_int (name : Text) : wordBeside name "int".toList = "int".toList := by
  rw [wordBeside]
  split
  · next same =>
      rw [← same]
      decide
  · rfl

theorem mapWords_outputLines {indent : Text} (blank : AllBlank indent) :
    mapWords (wordBeside name.text) (outputLines indent name.text "input".toList "print".toList) =
      outputLines indent (variableName name.text) (wordBeside name.text "input".toList)
        (wordBeside name.text "print".toList) := by
  have isReader : IsWord "input".toList := ⟨by decide, by decide⟩
  have isPrinter : IsWord "print".toList := ⟨by decide, by decide⟩
  rw [outputLines, mapWords_unlines, List.map_cons, List.map_singleton,
    mapWords_append_of_blank _ blank, mapWords_readCall name _ isReader,
    mapWords_call name _ isPrinter, wordBeside_self, wordBeside_int]
  rfl

end Naming

/-! ## The conversion -/

theorem isWord_variableName {name : Text} (isWord : IsWord name) : IsWord (variableName name) :=
  isWord_renamedAmong _ name isWord

theorem trim_outputLines (indent : Text) {target : Text} (isWord : IsWord target)
    (reader printer : Text) :
    trim (outputLines indent target reader printer) = outputLines indent target reader printer := by
  have split : outputLines indent target reader printer = target ++
      (" = int(".toList ++ (reader ++ ("())".toList ++ '\n' ::
        (indent ++ (printer ++ '(' :: target))))) ++ [')'] := by
    simp [outputLines, readCall, call]
  rw [split]
  apply trim_eq_self _ (endsSolid_concat (by decide))
  rw [List.append_assoc]
  exact isWord.startsSolid.append isWord.nonempty

/-- What becomes of the two lines, for a variable of any name. -/
theorem toList_toPython_readAndPrint (name : Identifier) :
    let spelled := name.spelled.text
    (toPython (String.ofList (readAndPrint name.text))).toList =
      outputLines (blockIndent spelled) (variableName spelled)
        (wordBeside spelled "input".toList) (wordBeside spelled "print".toList) := by
  intro spelled
  have blank := allBlank_blockIndent spelled
  rw [toPython, String.toList_ofList, String.toList_ofList, Rendition.text_ofSnippet,
    respelled_readAndPrint, convertLayout_outputLines, convertNames_outputLines _ blank,
    mapWords_outputLines _ blank]
  exact trim_outputLines _ (isWord_variableName name.spelled.isWord) _ _

/-- The parts of the two lines can be read off them. -/
theorem outputLines_inj {indent target reader printer other : Text} (blank : AllBlank indent)
    (isTarget : IsWord target) (isReader : IsWord reader) (isPrinter : IsWord printer)
    (isOther : IsWord other)
    (same : outputLines indent target reader printer =
      outputLines [] other "input".toList "print".toList) :
    target = other ∧ reader = "input".toList ∧ indent = [] ∧ printer = "print".toList := by
  have parts : ∀ indent target reader printer, outputLines indent target reader printer =
      target ++ ' ' :: ("= int(".toList ++ (reader ++ '(' :: ("))\n".toList ++
        (indent ++ (printer ++ '(' :: (target ++ [')'])))))) := by
    intro indent target reader printer
    simp [outputLines, readCall, call]
  have solid : ∀ word char, IsWord word → isWordChar char = false → char ∉ word := by
    intro word char isWord outside member
    rw [isWord.inside char member] at outside
    cases outside
  rw [parts, parts] at same
  obtain ⟨sameTarget, behindTarget⟩ := append_cons_inj_of_apart (solid _ _ isTarget (by decide))
    (solid _ _ isOther (by decide)) same
  obtain ⟨sameReader, behindReader⟩ := append_cons_inj_of_apart (solid _ _ isReader (by decide))
    (by decide) (List.append_cancel_left behindTarget)
  have second := List.append_cancel_left behindReader
  cases indent with
  | nil =>
      obtain ⟨samePrinter, _⟩ := append_cons_inj_of_apart (solid _ _ isPrinter (by decide))
        (by decide) second
      exact ⟨sameTarget, sameReader, rfl, samePrinter⟩
  | cons char indent =>
      have isLetter : char = 'p' := (List.cons.inj second).1
      have isBlank := blank char List.mem_cons_self
      rw [isLetter] at isBlank
      cases isBlank

theorem length_freshName (name : Text) : (freshName name).length = name.length + 4 := by
  rw [freshName, List.length_append]
  rfl

/-- Names of one length stay apart. -/
theorem variableName_inj {name other : Text} (sameLength : name.length = other.length)
    (same : variableName name = variableName other) : name = other := by
  have lengths := congrArg List.length same
  by_cases builtin : name ∈ builtinNames.map String.toList <;>
    by_cases otherBuiltin : other ∈ builtinNames.map String.toList <;>
    simp only [variableName, renamedAmong, List.contains_iff_mem, builtin, otherBuiltin, if_true,
      if_false, length_freshName] at same lengths
  · exact List.append_cancel_right same
  · omega
  · omega
  · exact same

theorem isWord_wordBeside {name word : Text} (isName : IsWord name) (isWord : IsWord word) :
    IsWord (wordBeside name word) := by
  rw [wordBeside]
  split
  · exact isWord_variableName isName
  · exact isWord

/-- A function keeps its name beside a variable of another name. -/
theorem wordBeside_eq_self_iff {name function : Text}
    (builtin : function ∈ builtinNames.map String.toList) :
    wordBeside name function = function ↔ name ≠ function := by
  rw [wordBeside]
  split
  · next same =>
      have renamed : variableName name ≠ function := by
        rw [← same, variableName, renamedAmong, if_pos (List.contains_iff_mem.2 builtin)]
        intro kept
        have lengths := congrArg List.length kept
        rw [length_freshName] at lengths
        omega
      exact iff_of_false renamed (not_not_intro same.symm)
  · next other => exact iff_of_true rfl (Ne.symm other)

theorem blockIndent_eq_nil_iff {name : Text} : blockIndent name = [] ↔ name ≠ "elif".toList := by
  rw [blockIndent]
  split
  · next same => exact iff_of_false (by decide) (not_not_intro same)
  · next other => exact iff_of_true rfl other

theorem spelled_eq_self_iff (name : Identifier) :
    name.spelled.text = name.text ↔
      ∀ spelling ∈ literalSpellings, ¬spelling.1.toList <:+: name.text := by
  have within : literalSpellings ⊆ spellings := by decide
  constructor
  · intro same
    apply absent_of_weigh_respellBy literalSpellings_ne_nil
      fun spelling listed => burden_spellings spelling (within listed)
    exact Int.le_of_eq (congrArg (weigh burden) same.symm)
  · exact respellBy_of_absent within

/-- A number is read into a variable and printed. The variable keeps its name up to the ending of a
built-in name, and the functions keep theirs, exactly if the name holds no word for a literal and is
neither the name of one of the functions nor the word for the next part of a branch. -/
theorem toPython_readAndPrint (name : Identifier) :
    let spelled := name.spelled.text
    let output := (toPython (String.ofList (readAndPrint name.text))).toList
    output = outputLines (blockIndent spelled) (variableName spelled)
        (wordBeside spelled "input".toList) (wordBeside spelled "print".toList) ∧
      (output = outputLines [] (variableName name.text) "input".toList "print".toList ↔
        (∀ spelling ∈ literalSpellings, ¬spelling.1.toList <:+: name.text) ∧
          name.text ∉ ["print".toList, "input".toList, "elif".toList]) := by
  intro spelled output
  have converted : output = _ := toList_toPython_readAndPrint name
  have isReader : "input".toList ∈ builtinNames.map String.toList := by decide
  have isPrinter : "print".toList ∈ builtinNames.map String.toList := by decide
  refine ⟨converted, ?_⟩
  rw [converted, ← spelled_eq_self_iff]
  simp only [List.mem_cons, List.not_mem_nil, or_false, not_or]
  constructor
  · intro same
    have isWord := name.spelled.isWord
    obtain ⟨sameName, reader, indent, printer⟩ := outputLines_inj (allBlank_blockIndent _)
      (isWord_variableName isWord) (isWord_wordBeside isWord (isWord_of_mem_builtinNames isReader))
      (isWord_wordBeside isWord (isWord_of_mem_builtinNames isPrinter))
      (isWord_variableName name.isWord) same
    have isSpelled : name.spelled.text = name.text :=
      variableName_inj (length_respellBy literalSpellings_ne_nil (by decide) name.text) sameName
    rw [isSpelled] at reader indent printer
    exact ⟨isSpelled, (wordBeside_eq_self_iff isPrinter).1 printer,
      (wordBeside_eq_self_iff isReader).1 reader, blockIndent_eq_nil_iff.1 indent⟩
  · rintro ⟨isSpelled, noPrinter, noReader, noBranch⟩
    rw [isSpelled, (wordBeside_eq_self_iff isPrinter).2 noPrinter,
      (wordBeside_eq_self_iff isReader).2 noReader, blockIndent_eq_nil_iff.2 noBranch]

/-- The call that prints is renamed together with the variable. -/
theorem toPython_readAndPrint_print :
    let snippet := "int print = sc.nextInt();\nSystem.out.println(print);"
    snippet.toList = readAndPrint "print".toList ∧
      toPython snippet = "print_var = int(input())\nprint_var(print_var)" ∧
      (toPython snippet).toList ≠
        outputLines [] (variableName "print".toList) "input".toList "print".toList := by
  decide +kernel

end Offside
