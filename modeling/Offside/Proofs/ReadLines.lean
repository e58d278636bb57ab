import Offside.Proofs.Reading

/-!
# Listings of reads

A listing in which every line reads a value into a variable, behind a type or not. A read by a known
method gives way to a call of `input`, and any other read is kept and remarked on under the number
of its line. No line is taken for the declaration of a reader, whatever the names in it are.
-/

namespace Offside

/-- The types of the values that are no objects. -/
def primitiveTypes : List String :=
  ["byte", "short", "int", "long", "float", "double", "boolean", "char"]

/-- What is assigned in the place of a read, if its method is known. -/
def readValue? (method : Text) : Option Text :=
  if method = "nextInt".toList then some "int(input())".toList
  else if method = "nextDouble".toList then some "float(input())".toList
  else if method = "nextLine".toList ∨ method = "next".toList then some "input()".toList
  else none

/-- A line that reads a value into a variable. -/
structure ReadLine where
  indent : Text
  type? : Option String
  target : Identifier
  reader : Identifier
  method : Text
  indented : AllBlank indent
  single : '\n' ∉ indent
  primitive : ∀ type ∈ type?, type ∈ primitiveTypes
  isWord : IsWord method
  reads : "next".toList <+: method

namespace ReadLine

/-- What stands in front of the statement. -/
def front (line : ReadLine) : Text :=
  line.indent ++ line.type?.elim [] (·.toList ++ [' '])

/-- The statement that reads the value. -/
def statement (line : ReadLine) : Text :=
  line.target.text ++ (" = ".toList ++
    (line.reader.text ++ (".".toList ++ (line.method ++ "();".toList))))

/-- The line as it is written. -/
def source (line : ReadLine) : Text :=
  line.front ++ line.statement

/-- What becomes of the statement. -/
def outcome (line : ReadLine) : Text :=
  match readValue? line.method with
  | some value => line.target.text ++ " = ".toList ++ value
  | none => line.statement

/-- What becomes of the line. -/
def converted (line : ReadLine) : Text :=
  line.front ++ line.outcome

/-- The remark on the line, if its method is not known. -/
def remark? (line : ReadLine) (number : Nat) : Option Remark :=
  match readValue? line.method with
  | some _ => none
  | none => some {
      origin := Pass.reading.name
      line := number
      reason := .unknownReadMethod line.method
      snippet := line.statement }

/-- The remarks on a listing whose first line has a number. -/
def remarks (number : Nat) (listing : List ReadLine) : List Remark :=
  (listing.zipIdx number).filterMap fun entry => entry.1.remark? entry.2

theorem remarks_cons (number : Nat) (line : ReadLine) (others : List ReadLine) :
    remarks number (line :: others) =
      (line.remark? number).toList ++ remarks (number + 1) others := by
  rw [remarks, List.zipIdx_cons, List.filterMap_cons]
  cases line.remark? number <;> rfl

end ReadLine

/-! ## Verdicts -/

/-- A call of `input` behind a coercion, if there is one. -/
def coercedInput : Option String → Text
  | some coercion => coercion.toList ++ "(input())".toList
  | none => "input()".toList

theorem verdict_readStatement (statement : ReadStatement) :
    statement.verdict =
      match readValue? statement.method with
      | some value => .replace (statement.target ++ " = ".toList ++ value)
      | none => .keep (.unknownReadMethod statement.method) := by
  obtain ⟨target, method⟩ := statement
  rw [ReadStatement.verdict]
  cases found : readCoercions.find? fun entry => entry.1.toList = method with
  | some entry =>
      have values : ∀ entry ∈ readCoercions,
          readValue? entry.1.toList = some (coercedInput entry.2) := by decide
      obtain ⟨name, coercion?⟩ := entry
      have listed := List.find?_some found
      have isMethod : name.toList = method := of_decide_eq_true listed
      have value := values _ (List.mem_of_find?_eq_some found)
      rw [isMethod] at value
      simp only [value]
      cases coercion? with
      | some coercion => exact congrArg Verdict.replace (List.append_assoc _ _ _)
      | none =>
          have call : " = input()".toList = " = ".toList ++ "input()".toList := by decide
          rw [call]
          exact congrArg Verdict.replace (List.append_assoc _ _ _).symm
  | none =>
      have unknown : ∀ entry ∈ readCoercions, method ≠ entry.1.toList := by
        intro entry member isMethod
        exact List.find?_eq_none.1 found entry member (decide_eq_true isMethod.symm)
      have noInt := unknown ("nextInt", some "int") (by decide)
      have noDouble := unknown ("nextDouble", some "float") (by decide)
      have noText : ¬(method = "nextLine".toList ∨ method = "next".toList) :=
        not_or.2 ⟨unknown ("nextLine", none) (by decide), unknown ("next", none) (by decide)⟩
      have noValue : readValue? method = none := by
        rw [readValue?, if_neg noInt, if_neg noDouble, if_neg noText]
      simp only [noValue]

namespace ReadLine

variable (line : ReadLine)

/-! ## No reader is declared -/

theorem notMem_front {char : Char} (noIndent : char ∉ line.indent) (noSpace : char ≠ ' ')
    (noType : ∀ type ∈ primitiveTypes, char ∉ type.toList) : char ∉ line.front := by
  rw [front, List.mem_append, not_or]
  refine ⟨noIndent, ?_⟩
  cases typed : line.type? with
  | none => exact List.not_mem_nil
  | some type =>
      have absent := noType type (line.primitive type typed)
      simpa [noSpace] using absent

theorem consoleReader_silent_source (rest : Text) (before : Option Char) :
    consoleReader.Silent rest before line.source := by
  have apart : ∀ {stretch behind : Text} {here : Option Char}, 'S' ∉ stretch →
      consoleReader.Silent behind here stretch := by
    intro stretch behind here missing
    exact consoleReader_opensWith.silent (by simpa using missing)
  have noIndent : 'S' ∉ line.indent := fun member => absurd (line.indented 'S' member) (by decide)
  rw [source, statement]
  refine .append (apart (line.notMem_front noIndent (by decide) (by decide))) ?_
  refine .append (consoleReader_silent_word line.target.isWord.inside rfl rfl) ?_
  refine .append (apart (by decide)) ?_
  refine .append (consoleReader_silent_word line.reader.isWord.inside rfl rfl) ?_
  refine .append (apart (by decide)) ?_
  exact .append (consoleReader_silent_word line.isWord.inside rfl rfl) (apart (by decide))

theorem dropReaders_unlines (listing : List ReadLine) :
    dropReaders (unlines (listing.map source)) = unlines (listing.map source) := by
  have silent : ∀ before, consoleReader.Silent [] before (unlines (listing.map source)) := by
    induction listing with
    | nil => exact fun _ => .nil
    | cons line others ih =>
        intro before
        cases others with
        | nil => exact line.consoleReader_silent_source [] before
        | cons next rest =>
            have newline : ∀ here text, consoleReader.at? here ('\n' :: text) = none :=
              fun _ _ => rfl
            rw [List.map_cons, List.map_cons, unlines_cons_cons]
            exact .append (line.consoleReader_silent_source _ _) (.cons (newline _ _) (ih _))
  exact (silent none).settles.replaceAll (consoleReader_opensWith.proper (by decide))

/-! ## Line by line -/

theorem skipBlanks_statement (rest : Text) :
    skipBlanks (' ' :: (line.statement ++ rest)) = line.statement ++ rest := by
  have starts : StartsSolid (line.statement ++ rest) := by
    rw [statement, List.append_assoc]
    exact line.target.isToken.starts.append line.target.nonempty
  have spaced := skipBlanks_append (by decide : AllBlank [' ']) (line.statement ++ rest)
  rwa [starts.skipBlanks_eq] at spaced

theorem readStatement_silent_front {before : Option Char} (rest : Text) :
    readStatement.Silent (line.statement ++ rest) before line.front := by
  have space : AllBlank [' '] := by decide
  refine .append (.of_blank readStatement_startsVisibly line.indented) ?_
  cases typed : line.type? with
  | none => exact .nil
  | some type =>
      have letters : ∀ type ∈ primitiveTypes,
          type.toList ≠ [] ∧ ∀ char ∈ type.toList, isWordChar char = true := by decide
      have typeWord := letters type (line.primitive type typed)
      have unassigned :
          expect? "=".toList (skipBlanks (' ' :: (line.statement ++ rest))) = none := by
        rw [line.skipBlanks_statement, statement, List.append_assoc]
        obtain ⟨first, others, split⟩ := List.exists_cons_of_ne_nil line.target.nonempty
        have noEquals : first ≠ '=' := by
          rintro rfl
          cases line.target.starts '=' (by rw [split]; rfl)
        rw [split]
        exact expect?_cons_of_ne noEquals _ _
      refine .append ?_ (.of_blank readStatement_startsVisibly space)
      exact readStatement_silent_word ⟨typeWord.1, typeWord.2⟩ rfl unassigned

theorem opensWord_front {before : Option Char} (opens : opensWord before = true) :
    opensWord (passed before line.front) = true := by
  rw [front, passed_append]
  have indented := opensWord_passed_of_blank line.indented opens
  cases line.type? with
  | none => exact indented
  | some type =>
      show opensWord (passed _ (type.toList ++ [' '])) = true
      rw [passed_append]
      rfl

/-- A line is cut into what stands in front of the statement, and the statement. -/
theorem piecesFrom_source_append {before : Option Char} (opens : opensWord before = true)
    (rest : Text) :
    readStatement.piecesFrom .free before (line.source ++ rest) =
      line.front.map .gap ++ .hit line.statement ⟨line.target.text, line.method⟩ ::
        readStatement.piecesFrom .free (some ';') rest := by
  have found : readStatement.at? (passed before line.front) (line.statement ++ rest) =
      some (⟨line.target.text, line.method⟩, rest) := by
    have read := readStatement_at?_append (line.opensWord_front opens) line.target.isWord
      line.reader.isWord line.isWord line.reads rest
    simpa [statement] using read
  have nonempty : line.statement ≠ [] := by simp [statement]
  have ends : ∀ here, passed here line.statement = some ';' := by
    intro here
    simp only [statement, passed_append]
    rfl
  rw [source, List.append_assoc, (line.readStatement_silent_front rest).piecesFrom_append,
    readStatement_proper.piecesFrom_of_at?_eq_some nonempty found, ends]

theorem newlines_source : newlines line.front = 0 ∧ newlines line.statement = 0 := by
  have noWord : ∀ word : Text, IsWord word → '\n' ∉ word := by
    intro word isWord member
    cases isWord.inside '\n' member
  constructor
  · exact List.count_eq_zero.2 (line.notMem_front line.single (by decide) (by decide))
  · apply List.count_eq_zero.2
    simp [statement, noWord _ line.target.isWord, noWord _ line.reader.isWord, noWord _ line.isWord]

/-- What becomes of a text, from a line on. -/
def readsFrom (before : Option Char) (index number : Nat) (text : Text) : Draft :=
  editPieces Pass.reading.name (fun _ _ statement => statement.verdict) index number
    (readStatement.piecesFrom .free before text)

/-- One line of a listing. -/
theorem readsFrom_source_append {before : Option Char} (opens : opensWord before = true)
    (rest : Text) (index number : Nat) :
    let tail := readsFrom (some ';') (index + 1) number rest
    let draft := readsFrom before index number (line.source ++ rest)
    draft.text = line.converted ++ tail.text ∧
      draft.remarks = (line.remark? number).toList ++ tail.remarks := by
  intro tail draft
  obtain ⟨noFront, noStatement⟩ := line.newlines_source
  have verdict := verdict_readStatement ⟨line.target.text, line.method⟩
  simp only [draft, readsFrom, line.piecesFrom_source_append opens,
    Recognizer.editPieces_gaps_append, editPieces, noFront, noStatement, Nat.add_zero, verdict,
    converted, outcome, remark?]
  cases readValue? line.method with
  | some value => simp [Verdict.outcome, Verdict.reason?, tail, readsFrom]
  | none => simp [Verdict.outcome, Verdict.reason?, tail, readsFrom]

theorem readsFrom_nil (before : Option Char) (index number : Nat) :
    readsFrom before index number [] = { text := [] } := by
  rw [readsFrom, readStatement_proper.piecesFrom_nil]
  rfl

theorem readsFrom_newline (before : Option Char) (index number : Nat) (text : Text) :
    let tail := readsFrom (some '\n') index (number + 1) text
    readsFrom before index number ('\n' :: text) = { tail with text := '\n' :: tail.text } := by
  intro tail
  have missing := readStatement_startsVisibly before '\n' text (by decide)
  rw [readsFrom, Recognizer.piecesFrom_of_at?_eq_none missing]
  rfl

/-- A listing from a line on. -/
theorem readsFrom_unlines (listing : List ReadLine) {before : Option Char}
    (opens : opensWord before = true) (index number : Nat) :
    let draft := readsFrom before index number (unlines (listing.map source))
    draft.text = unlines (listing.map converted) ∧ draft.remarks = remarks number listing := by
  induction listing generalizing before index number with
  | nil =>
      have nothing := readsFrom_nil before index number
      exact ⟨congrArg Draft.text nothing, congrArg Draft.remarks nothing⟩
  | cons line others ih =>
      rw [remarks_cons]
      cases others with
      | nil =>
          have only := line.readsFrom_source_append opens [] index number
          simpa [readsFrom_nil, remarks] using only
      | cons next rest =>
          have first := line.readsFrom_source_append opens
            ('\n' :: unlines ((next :: rest).map source)) index number
          have opensLine : opensWord (some '\n') = true := rfl
          obtain ⟨texts, remarked⟩ := ih opensLine (index + 1) (number + 1)
          simp only [readsFrom_newline, texts, remarked] at first
          simpa only [List.map_cons, unlines_cons_cons] using first

/-- In a listing of reads, every read by a known method is replaced and nothing else is changed.
Each of the other reads is remarked on, in order, under the number of its line. -/
theorem convertReads_listing (listing : List ReadLine) :
    let draft := convertReads (unlines (listing.map source))
    draft.text = unlines (listing.map converted) ∧ draft.remarks = remarks 1 listing := by
  intro draft
  simp only [draft, convertReads, dropReaders_unlines]
  exact readsFrom_unlines listing rfl 0 1

/-- The type of a reader as a name. -/
def scannerName : Identifier :=
  ⟨"Scanner".toList, by decide, fun _ first => by cases first; decide, by decide⟩

/-- A line that reads into a variable named like the type of a reader, from such a reader. -/
def fromScanner (method : Text) (isWord : IsWord method) (reads : "next".toList <+: method) :
    ReadLine where
  indent := ['\t']
  type? := some "long"
  target := scannerName
  reader := scannerName
  method := method
  indented := by decide
  single := by decide
  primitive := by decide
  isWord := isWord
  reads := reads

theorem convertReads_listing_fromScanner :
    let draft := convertReads
      "\tlong Scanner = Scanner.nextInt();\n\tlong Scanner = Scanner.nextLong();".toList
    draft.text = "\tlong Scanner = int(input())\n\tlong Scanner = Scanner.nextLong();".toList ∧
      draft.remarks = [{
        origin := Pass.reading.name
        line := 2
        reason := .unknownReadMethod "nextLong".toList
        snippet := "Scanner = Scanner.nextLong();".toList }] :=
  convertReads_listing [fromScanner "nextInt".toList ⟨by decide, by decide⟩ (by decide),
    fromScanner "nextLong".toList ⟨by decide, by decide⟩ (by decide)]

end ReadLine

end Offside
