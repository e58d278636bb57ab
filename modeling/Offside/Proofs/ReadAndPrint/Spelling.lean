import Offside.Proofs.ClassName.Header
import Offside.Proofs.PrintedLiteral.Passage
import Offside.Proofs.ReadLines

/-!
# A variable that is read and printed

Two lines that read a number into a variable and print it, for a variable of any name, up to the
layout pass. The read and the print become calls, and the words for literals are respelled inside
the name.
-/

namespace Offside

/-- The statement that prints a variable. -/
def printLine (name : Text) : Text :=
  "System.out.println(".toList ++ (name ++ ");".toList)

theorem printLine_eq (name : Text) :
    printLine name = Ending.newline.method ++ (name ++ ");".toList) := rfl

/-- Two lines that read a number into a variable and print it. -/
def readAndPrint (name : Text) : Text :=
  unlines ["int ".toList ++ (name ++ " = sc.nextInt();".toList), printLine name]

/-- The assignment of a number that a function reads. -/
def readCall (target function : Text) : Text :=
  target ++ (" = int(".toList ++ (function ++ "())".toList))

/-- The call of a function. -/
def call (function argument : Text) : Text :=
  function ++ '(' :: (argument ++ [')'])

/-- Two lines that read a variable and print it, the second one behind an indentation. -/
def outputLines (indent target reader printer : Text) : Text :=
  unlines [readCall target reader, indent ++ call printer target]

/-- The declaration of a variable whose value is read. -/
def readDeclaration (name : Text) : Text :=
  "int ".toList ++ readCall name "input".toList

/-! ## The passes in front of the spelling -/

theorem Identifier.unquoted (name : Identifier) : ∀ char ∈ name.text, char ∉ quoteMarks := by
  have outside : ∀ mark ∈ quoteMarks, isIdentifierChar mark = false := by decide
  exact fun char member isMark => name.notMem (outside char isMark) member

section Passes

variable (name : Identifier)

/-- The line that reads the number. -/
def readIntLine : ReadLine where
  indent := []
  type? := some "int"
  target := name
  reader := ⟨"sc".toList, by decide, fun _ first => by cases first; decide, by decide⟩
  method := "nextInt".toList
  indented := allBlank_nil
  single := List.not_mem_nil
  primitive := by decide
  isWord := ⟨by decide, by decide⟩
  reads := by decide

theorem readAndPrint_eq :
    readAndPrint name.text = (readIntLine name).source ++ '\n' :: printLine name.text := by
  rw [readAndPrint, unlines_cons_cons]
  rfl

theorem dropReaders_readAndPrint :
    dropReaders (readAndPrint name.text) = readAndPrint name.text := by
  have newline : ∀ here text, consoleReader.at? here ('\n' :: text) = none := fun _ _ => rfl
  have opening : ∀ type ∈ ["Scanner".toList], Apart "System.out.println(".toList type := by decide
  have printing : ∀ before, consoleReader.Silent [] before (printLine name.text) := by
    intro before
    refine .append (consoleReader_opensWith.silent_of_apart opening _) ?_
    refine .append (consoleReader_silent_word name.isWord.inside rfl rfl) ?_
    exact consoleReader_opensWith.silent (by decide)
  have silent : consoleReader.Silent [] none (readAndPrint name.text) := by
    rw [readAndPrint_eq]
    exact .append ((readIntLine name).consoleReader_silent_source _ _)
      (.cons (newline _ _) (printing _))
  exact silent.settles.replaceAll (consoleReader_opensWith.proper (by decide))

theorem not_isInfix_next_printLine : ¬".next".toList <:+: '\n' :: printLine name.text := by
  have split : '\n' :: printLine name.text =
      "\nSystem.out.println".toList ++ '(' :: (name.text ++ ");".toList) := rfl
  have noDot : '.' ∉ name.text ++ ");".toList := by
    have notName : '.' ∉ name.text := name.notMem (by decide)
    simp [notName]
  rw [split]
  exact not_isInfix_append_cons (by decide) (by decide) (not_isInfix_of_notMem (by decide) noDot)

theorem convertReads_readAndPrint :
    (convertReads (readAndPrint name.text)).text =
      readDeclaration name.text ++ '\n' :: printLine name.text := by
  have reads : convertReads (readAndPrint name.text) =
      ReadLine.readsFrom none 0 1 (readAndPrint name.text) := by
    rw [convertReads, dropReaders_readAndPrint]
    rfl
  have tail : (ReadLine.readsFrom (some ';') 1 1 ('\n' :: printLine name.text)).text =
      '\n' :: printLine name.text :=
    ((readStatement_settles (not_isInfix_next_printLine name)).editPieces readStatement_proper
      Pass.reading.name 1 1).1
  have opens : opensWord none = true := rfl
  have line := ((readIntLine name).readsFrom_source_append opens
    ('\n' :: printLine name.text) 0 1).1
  have converted : (readIntLine name).converted = readDeclaration name.text := by
    simp [ReadLine.converted, ReadLine.front, ReadLine.outcome, readIntLine, readValue?,
      readDeclaration, readCall]
  rw [reads, readAndPrint_eq, line, tail, converted]

theorem looped_readAndPrint :
    looped (readAndPrint name.text) =
      readDeclaration name.text ++ '\n' :: printLine name.text := by
  have noMark : ';' ∉ name.text := name.notMem (by decide)
  have few : (readDeclaration name.text ++ '\n' :: printLine name.text).count ';' ≤ 1 := by
    have split : readDeclaration name.text ++ '\n' :: printLine name.text =
        (readDeclaration name.text ++ '\n' :: (Ending.newline.method ++ name.text)) ++
          ");".toList := by
      rw [printLine_eq]
      simp only [List.append_assoc, List.cons_append]
    have front : ';' ∉
        readDeclaration name.text ++ '\n' :: (Ending.newline.method ++ name.text) := by
      have noMethod : ';' ∉ Ending.newline.method := by decide
      simp [readDeclaration, readCall, noMark, noMethod]
    rw [split, List.count_append, List.count_eq_zero.2 front]
    decide
  rw [looped, convertReads_readAndPrint, convertLoops_of_count few]

theorem convertPrints_readAndPrint :
    (convertPrints (readDeclaration name.text ++ '\n' :: printLine name.text)).text =
      readDeclaration name.text ++ '\n' :: call "print".toList name.text := by
  have noDot : '.' ∉ readDeclaration name.text := by
    have notName : '.' ∉ name.text := name.notMem (by decide)
    simp [readDeclaration, readCall, notName]
  have replaced : PrintStatement.verdict { ending := .newline, arguments := name.text } =
      .replace (call "print".toList name.text) := by
    have certain : plusIsDoubtful name.text = false :=
      plusIsDoubtful_eq_false name.unquoted (name.notMem (by decide))
    have noPlus : '+' ∉ name.text := name.notMem (by decide)
    rw [PrintStatement.verdict, certain]
    simp only [PrintStatement.render, trim_eq_self name.isToken.starts name.isToken.ends,
      spreadOperands_of_notMem noPlus]
    rfl
  have found : ∀ before, printStatement.at? before (printLine name.text ++ []) =
      some ({ ending := .newline, arguments := name.text }, []) := by
    intro before
    rw [printLine_eq, List.append_assoc, List.append_assoc]
    exact printStatement_at?_append (name.notMem (by decide)) (name.notMem (by decide)) before
      .newline
  have reading : printStatement.Settles PrintStatement.verdict ('\n' :: printLine name.text ++ [])
      none (readDeclaration name.text) (readDeclaration name.text) := by
    apply printStatement_opensWith.settles (by decide) _ (closesLine_newline _)
    intro opening member
    rw [List.mem_singleton.1 member]
    exact not_isInfix_of_notMem (by decide) noDot
  have newline : ∀ here text, printStatement.at? here ('\n' :: text) = none := fun _ _ => rfl
  have settles : printStatement.Settles PrintStatement.verdict [] none
      (readDeclaration name.text ++ '\n' :: printLine name.text)
      (readDeclaration name.text ++ '\n' :: call "print".toList name.text) :=
    .append reading (.gap (newline _ _) (.cons_hit (List.cons_ne_nil _ _) (found _) replaced))
  exact (settles.edit (printStatement_opensWith.proper (by decide)) Pass.printing.name).1

end Passes

/-! ## Spelling -/

/-- A character that does not start a text is apart from it. -/
theorem apart_singleton {member : Char → Bool} {char : Char} (outside : member char = false)
    {other : Text} (starts : other.head?.any member = true) : Apart [char] other := by
  cases other with
  | nil => cases starts
  | cons first rest =>
      have differs : char ≠ first := by
        rintro rfl
        exact absurd starts (by simp [outside])
      intro back isTail nonempty
      have only : back = [char] := by simpa [nonempty] using isTail
      rw [only]
      exact ⟨fun isPrefix => differs (List.cons_prefix_cons.1 isPrefix).1,
        fun isPrefix => differs (List.cons_prefix_cons.1 isPrefix).1.symm⟩

/-- A name with the words for literals in it respelled. -/
def Identifier.spelled (name : Identifier) : Identifier where
  text := respellBy literalSpellings name.text
  nonempty := mt respellBy_literalSpellings_eq_nil.1 name.nonempty
  starts := by
    intro char first
    by_contra isOther
    have noStart : isIdentifierStart char = false := Bool.not_eq_true _ ▸ isOther
    -- No new spelling starts with such a character, so that the name itself does.
    have capitals : ∀ spelling ∈ literalSpellings,
        spelling.2.toList.head?.any isIdentifierStart = true := by decide
    have apart : ∀ spelling ∈ literalSpellings, Apart [char] spelling.2.toList :=
      fun spelling listed => apart_singleton noStart (capitals spelling listed)
    have starts : [char] <+: respellBy literalSpellings name.text := by
      obtain ⟨rest, shape⟩ := List.head?_eq_some_iff.1 first
      exact ⟨rest, shape.symm⟩
    obtain ⟨rest, split, _⟩ := exists_of_isPrefix_respellBy literalSpellings_ne_nil apart starts
    exact isOther (name.starts char (by rw [split]; rfl))
  inside := inside_respellBy name.inside

section Spelling

variable (name : Identifier)

theorem respellBy_readDeclaration :
    respellBy literalSpellings (readDeclaration name.text) = readDeclaration name.spelled.text := by
  have apart : ∀ spelling ∈ literalSpellings, ' ' ∉ spelling.1.toList := by decide
  have parts : ∀ name, readDeclaration name =
      "int".toList ++ ' ' :: (name ++ ' ' :: "= int(input())".toList) := fun _ => rfl
  have first : respellBy literalSpellings "int".toList = "int".toList := by decide +kernel
  have last : respellBy literalSpellings "= int(input())".toList = "= int(input())".toList := by
    decide +kernel
  rw [parts, respellBy_append_cons literalSpellings_ne_nil apart,
    respellBy_append_cons literalSpellings_ne_nil apart, first, last]
  rfl

theorem respellBy_call :
    respellBy literalSpellings (call "print".toList name.text) =
      call "print".toList name.spelled.text := by
  have opening : ∀ spelling ∈ literalSpellings, '(' ∉ spelling.1.toList := by decide
  have closing : ∀ spelling ∈ literalSpellings, ')' ∉ spelling.1.toList := by decide
  have first : respellBy literalSpellings "print".toList = "print".toList := by decide +kernel
  have last : respellBy literalSpellings [] = [] := by decide +kernel
  rw [call, respellBy_append_cons literalSpellings_ne_nil opening,
    respellBy_append_cons literalSpellings_ne_nil closing, first, last]
  rfl

theorem isToken_readCall (function : Text) : IsToken (readCall name.text function) where
  nonempty := by simp [readCall]
  starts := name.isToken.starts.append name.nonempty
  ends := by
    have split : readCall name.text function =
        (name.text ++ (" = int(".toList ++ (function ++ "()".toList))) ++ [')'] := by
      simp [readCall]
    rw [split]
    exact endsSolid_concat (by decide)

/-- No header fits between the declared name and the equals sign. -/
theorem respellBy_headerSpellings_readDeclaration :
    respellBy headerSpellings (readDeclaration name.text) = readDeclaration name.text := by
  have apart : ∀ spelling ∈ headerSpellings, Apart "int ".toList spelling.1.toList := by decide
  have parts : readDeclaration name.text =
      "int ".toList ++ ((name.text ++ [' ']) ++ '=' :: " int(input())".toList) := by
    rw [List.append_assoc]
    rfl
  have wide : ∀ spelling ∈ headerSpellings, '=' ∉ spelling.1.toList ∧
      ¬spelling.1.toList <:+: " int(input())".toList ∧
      ('.' ∈ spelling.1.toList ∨ 2 ≤ spelling.1.toList.count ' ') := by decide
  have noDot : '.' ∉ name.text ++ [' '] := by
    have notName : '.' ∉ name.text := name.notMem (by decide)
    simp [notName]
  have few : (name.text ++ [' ']).count ' ' = 1 := by
    have notName : ' ' ∉ name.text := name.notMem (by decide)
    rw [List.count_append, List.count_eq_zero.2 notName]
    rfl
  rw [parts, respellBy_append_of_apart apart, respellBy_of_absent (by decide)]
  intro spelling listed
  obtain ⟨noEquals, notBehind, dot | spaces⟩ := wide spelling listed
  · exact not_isInfix_append_cons noEquals (not_isInfix_of_notMem dot noDot) notBehind
  · refine not_isInfix_append_cons noEquals ?_ notBehind
    intro occurs
    have within := occurs.sublist.count_le ' '
    omega

theorem notMem_readCall {char : Char} (outside : isIdentifierChar char = false)
    (others : char ∉ readCall [] "input".toList) : char ∉ readCall name.text "input".toList := by
  have notName := name.notMem outside
  simpa [readCall, notName] using others

theorem notMem_readDeclaration {char : Char} (outside : isIdentifierChar char = false)
    (others : char ∉ readDeclaration []) : char ∉ readDeclaration name.text := by
  rw [readDeclaration, List.mem_append, not_or] at others ⊢
  exact ⟨others.1, notMem_readCall name outside others.2⟩

theorem notMem_call {char : Char} (outside : isIdentifierChar char = false)
    (others : char ∉ call "print".toList []) : char ∉ call "print".toList name.text := by
  have notName := name.notMem outside
  simpa [call, notName] using others

theorem respellLine_readDeclaration :
    respellLine (readDeclaration name.text) = readCall name.spelled.text "input".toList := by
  have isRespelled : respell (readDeclaration name.text) = readDeclaration name.spelled.text := by
    rw [respell_eq_headerSpellings (notMem_readDeclaration name (by decide) (by decide))
      (notMem_readDeclaration name (by decide) (by decide)), respellBy_readDeclaration,
      respellBy_headerSpellings_readDeclaration]
  have noClass : withoutClass (readDeclaration name.spelled.text) =
      readDeclaration name.spelled.text := rfl
  have noMain : withoutMain (readDeclaration name.spelled.text) =
      readDeclaration name.spelled.text := rfl
  have noGap : IsGap [] := by decide
  have declared := respellDeclaration_int noGap (isToken_readCall name.spelled "input".toList)
    (notMem_readCall name.spelled (by decide) (by decide))
  have equals : '=' ∈ readCall name.spelled.text "input".toList := by simp [readCall]
  rw [assignment, if_pos equals] at declared
  rw [respellLine_eq, isRespelled, noClass, noMain]
  exact declared

theorem respellLine_printCall :
    respellLine (call "print".toList name.text) = call "print".toList name.spelled.text := by
  have isRespelled : respell (call "print".toList name.text) =
      call "print".toList name.spelled.text := by
    have spaced : ∀ spelling ∈ headerSpellings, ' ' ∈ spelling.1.toList := by decide
    rw [respell_eq_headerSpellings (notMem_call name (by decide) (by decide))
      (notMem_call name (by decide) (by decide)), respellBy_call]
    apply respellBy_of_absent (by decide)
    intro spelling listed
    exact not_isInfix_of_notMem (spaced spelling listed)
      (notMem_call name.spelled (by decide) (by decide))
  have noClass : withoutClass (call "print".toList name.spelled.text) =
      call "print".toList name.spelled.text := rfl
  have noMain : withoutMain (call "print".toList name.spelled.text) =
      call "print".toList name.spelled.text := rfl
  rw [respellLine_eq, isRespelled, noClass, noMain]
  exact respellDeclaration_eq_self rfl

theorem respelled_readAndPrint :
    respelled (readAndPrint name.text) =
      outputLines [] name.spelled.text "input".toList "print".toList := by
  have noBrace : '\x7b' ∉ readDeclaration name.text ++ '\n' :: printLine name.text := by
    have notRead := notMem_readDeclaration name (by decide : isIdentifierChar '\x7b' = false)
      (by decide)
    have notName : '\x7b' ∉ name.text := name.notMem (by decide)
    have noMethod : '\x7b' ∉ Ending.newline.method := by decide
    rw [printLine_eq]
    simp [notRead, notName, noMethod]
  have cut : lines (readDeclaration name.text ++ '\n' :: call "print".toList name.text) =
      [readDeclaration name.text, call "print".toList name.text] := by
    rw [lines_append_newline, lines_of_notMem (notMem_readDeclaration name (by decide) (by decide)),
      lines_of_notMem (notMem_call name (by decide) (by decide))]
    rfl
  rw [respelled, looped_readAndPrint, convertBranches_of_notMem noBrace, convertPrints_readAndPrint,
    convertSpelling, cut, List.map_cons, List.map_singleton, respellLine_readDeclaration,
    respellLine_printCall]
  rfl

end Spelling

end Offside
