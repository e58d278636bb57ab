import Offside.Proofs.Text.LetterPairs
import Offside.Proofs.Text.Silence
import Offside.Reading

/-!
# Console input

A text in which neither `Scanner` nor `next` occurs reads nothing, and is left as it is.
-/

namespace Offside

theorem consoleReader_at? (before : Option Char) (text : Text) :
    consoleReader.at? before text =
      (expect? "Scanner".toList text).bind fun text =>
      (skipSome? isBlank text).bind fun text =>
      (word? text).bind fun (_, text) =>
      (expect? "=".toList (skipBlanks text)).bind fun text =>
      (expect? "new".toList (skipBlanks text)).bind fun text =>
      (skipSome? isBlank text).bind fun text =>
      (expect? "Scanner(".toList text).bind fun text =>
      (shortest? (expect? ");".toList) text).bind fun (_, rest) => some ((), rest) := rfl

theorem consoleReader_encloses : consoleReader.Encloses "Scanner".toList ");".toList := by
  intro before text value rest found
  rw [consoleReader_at?] at found
  simp only [Option.bind_eq_some_iff] at found
  rcases found with ⟨behindType, typeFound, atName, nameSkipped, ⟨name, behindName⟩, nameFound,
    behindEquals, equalsFound, behindNew, newFound, atSecond, secondSkipped, behindSecond,
    secondFound, ⟨arguments, left⟩, searched, result⟩
  cases result
  rcases shortest?_eq_some searched with ⟨atClose, split, closeFound⟩
  refine ⟨behindType, expect?_eq_some.1 typeFound, ?_⟩
  calc ");".toList ++ left
    _ = atClose := (expect?_eq_some.1 closeFound).symm
    _ <:+ behindSecond := ⟨arguments, split.symm⟩
    _ <:+ atSecond := expect?_suffix secondFound
    _ <:+ behindNew := skipSome?_suffix secondSkipped
    _ <:+ skipBlanks behindEquals := expect?_suffix newFound
    _ <:+ behindEquals := skipBlanks_suffix behindEquals
    _ <:+ skipBlanks behindName := expect?_suffix equalsFound
    _ <:+ behindName := skipBlanks_suffix behindName
    _ <:+ atName := word?_suffix nameFound
    _ <:+ behindType := skipSome?_suffix nameSkipped

theorem consoleReader_opensWith : consoleReader.OpensWith ["Scanner".toList] :=
  consoleReader_encloses.opensWith

/-- No reader is declared by a word that no name follows. -/
theorem consoleReader_silent_word {word rest : Text} {before : Option Char}
    (inside : ∀ char ∈ word, isWordChar char = true) (closes : closesWord rest = true)
    (noName : (skipSome? isBlank rest).bind word? = none) :
    consoleReader.Silent rest before word := by
  apply Recognizer.Silent.of_forall
  intro front back split _
  have insideBack : ∀ char ∈ back, isWordChar char = true := by
    intro char member
    exact inside char (split ▸ List.mem_append_right front member)
  rw [consoleReader_at?]
  cases found : expect? "Scanner".toList (back ++ rest) with
  | none => rfl
  | some behind =>
      have starts : "Scanner".toList <+: back ++ rest := ⟨behind, (expect?_eq_some.1 found).symm⟩
      -- The type ends in the word, since what closes the word is no letter.
      obtain ⟨more, rfl⟩ : "Scanner".toList <+: back := by
        cases rest with
        | nil => rwa [List.append_nil] at starts
        | cons char rest =>
            have outside := closesWord_iff.1 closes char rfl
            refine isPrefix_of_isPrefix_append_cons (fun member => ?_) starts
            have letters : ∀ letter ∈ "Scanner".toList, isWordChar letter = true := by decide
            rw [letters char member] at outside
            cases outside
      rw [List.append_assoc, expect?_append] at found
      cases found
      cases more with
      | nil =>
          rw [Option.bind_some, List.nil_append, ← Option.bind_assoc, noName]
          rfl
      | cons char more =>
          have visible : isBlank char = false := by
            rw [← Bool.not_eq_true]
            intro blank
            have inWord := insideBack char (by simp)
            rw [isWordChar_of_isBlank blank] at inWord
            cases inWord
          have stuck : skipSome? isBlank (char :: more ++ rest) = none := by
            rw [List.cons_append, skipSome?, visible, if_neg Bool.false_ne_true]
          rw [Option.bind_some, stuck]
          rfl

theorem readStatement_at? (before : Option Char) (text : Text) :
    readStatement.at? before text =
      Option.bind (guard (opensWord before = true)) fun _ =>
      (word? text).bind fun (target, text) =>
      (expect? "=".toList (skipBlanks text)).bind fun text =>
      (word? (skipBlanks text)).bind fun (_, text) =>
      (expect? ".".toList text).bind fun text =>
      (word? text).bind fun (method, text) =>
      Option.bind (guard ("next".toList.isPrefixOf method = true)) fun _ =>
      (expect? "();".toList text).bind fun rest => some ({ target, method }, rest) := rfl

/-- A read takes its target off the front and ends with a call, and the name of its method is in
the text. -/
theorem readStatement_at?_eq_some {before : Option Char} {text rest : Text}
    {statement : ReadStatement} (found : readStatement.at? before text = some (statement, rest)) :
    (∃ target behind, target ≠ [] ∧ text = target ++ behind ∧ "();".toList ++ rest <:+ behind) ∧
      ".next".toList <:+: text := by
  rw [readStatement_at?] at found
  simp only [Option.bind_eq_some_iff] at found
  rcases found with ⟨_, _, ⟨target, behindTarget⟩, targetFound, behindEquals, equalsFound,
    ⟨reader, behindReader⟩, readerFound, behindDot, dotFound, ⟨method, behindMethod⟩, methodFound,
    _, named, left, closeFound, result⟩
  cases result
  have atReader : behindReader <:+ behindTarget :=
    calc behindReader
      _ <:+ skipBlanks behindEquals := word?_suffix readerFound
      _ <:+ behindEquals := skipBlanks_suffix behindEquals
      _ <:+ skipBlanks behindTarget := expect?_suffix equalsFound
      _ <:+ behindTarget := skipBlanks_suffix behindTarget
  have left : "();".toList ++ rest <:+ behindTarget :=
    calc "();".toList ++ rest
      _ = behindMethod := (expect?_eq_some.1 closeFound).symm
      _ <:+ behindDot := word?_suffix methodFound
      _ <:+ behindReader := expect?_suffix dotFound
      _ <:+ behindTarget := atReader
  constructor
  · exact ⟨target, behindTarget, (word?_eq_some targetFound).1, (word?_eq_some targetFound).2, left⟩
  · have starts : "next".toList <+: method :=
      List.isPrefixOf_iff_prefix.1 ((Option.guard_eq_some' _).1 named)
    have inMethod : method <+: behindDot := ⟨behindMethod, (word?_eq_some methodFound).2.symm⟩
    have dotted : behindReader = ".".toList ++ behindDot := expect?_eq_some.1 dotFound
    have called : ".next".toList <+: behindReader := by
      rw [dotted]
      exact List.cons_prefix_cons.2 ⟨rfl, starts.trans inMethod⟩
    exact called.isInfix.trans (atReader.trans (word?_suffix targetFound)).isInfix

/-- A read is recognised as a whole, whatever is behind it. -/
theorem readStatement_at?_append {before : Option Char} {target reader method : Text}
    (opens : opensWord before = true) (targetWord : IsWord target) (readerWord : IsWord reader)
    (methodWord : IsWord method) (reads : "next".toList <+: method) (rest : Text) :
    readStatement.at? before
        (target ++ (" = ".toList ++ (reader ++ ('.' :: (method ++ ("();".toList ++ rest)))))) =
      some ({ target, method }, rest) := by
  have equals : ∀ behind, expect? "=".toList (skipBlanks (" = ".toList ++ behind)) =
      some (' ' :: behind) := fun _ => rfl
  have toReader : ∀ behind, skipBlanks (' ' :: (reader ++ behind)) = reader ++ behind := by
    intro behind
    have spaced := skipBlanks_append (by decide : AllBlank [' ']) (reader ++ behind)
    rwa [(readerWord.startsSolid.append readerWord.nonempty).skipBlanks_eq] at spaced
  have dot : ∀ behind, expect? ".".toList ('.' :: behind) = some behind := fun _ => rfl
  rw [readStatement_at?, guard_of_true opens, Option.bind_some, targetWord.word?_append rfl]
  simp only [Option.bind_some, equals, toReader]
  rw [readerWord.word?_append rfl]
  simp only [Option.bind_some, dot]
  rw [methodWord.word?_append rfl, Option.bind_some,
    guard_of_true (List.isPrefixOf_iff_prefix.2 reads), Option.bind_some, expect?_append]
  rfl

theorem readStatement_proper : readStatement.Proper := by
  intro before text statement rest found
  rcases (readStatement_at?_eq_some found).1 with ⟨target, behind, nonempty, rfl, closed⟩
  obtain ⟨taken, rfl⟩ := (List.suffix_append "();".toList rest).trans closed
  refine ⟨target ++ taken, ?_, (List.append_assoc target taken rest).symm⟩
  intro empty
  exact nonempty (List.append_eq_nil_iff.1 empty).1

theorem readStatement_startsVisibly : readStatement.StartsVisibly := by
  intro before char rest blank
  have noWord : word? (char :: rest) = none := by
    simp [word?, isWordChar_of_isBlank blank]
  rw [readStatement_at?, noWord]
  cases (guard (opensWord before = true) : Option Unit) <;> rfl

/-- Nothing is read into a word that is not assigned. -/
theorem readStatement_silent_word {word rest : Text} {before : Option Char} (isWord : IsWord word)
    (closes : closesWord rest = true) (unassigned : expect? "=".toList (skipBlanks rest) = none) :
    readStatement.Silent rest before word := by
  apply Recognizer.Silent.of_forall
  intro front back split nonempty
  have backWord : IsWord back :=
    ⟨nonempty, fun char member => isWord.inside char (split ▸ List.mem_append_right front member)⟩
  rw [readStatement_at?, backWord.word?_append closes]
  simp only [Option.bind_some, unassigned]
  cases (guard (opensWord (passed before front) = true) : Option Unit) <;> rfl

theorem readStatement_settles {judge : ReadStatement → Verdict} {text : Text}
    (absent : ¬".next".toList <:+: text) {before : Option Char} :
    readStatement.Settles judge [] before text text := by
  induction text generalizing before with
  | nil => exact .nil
  | cons char text ih =>
      apply Recognizer.Settles.gap
      · rw [List.append_nil]
        cases found : readStatement.at? before (char :: text) with
        | none => rfl
        | some result => exact absurd (readStatement_at?_eq_some found).2 absent
      · apply ih
        intro occurs
        exact absent (occurs.trans (List.suffix_cons char text).isInfix)

/-- A text that reads nothing is left as it is. -/
theorem convertReads_eq {text : Text} (noReader : hasPair 'S' 'c' text = false)
    (noRead : hasPair 'n' 'e' text = false) :
    (convertReads text).text = text ∧ (convertReads text).remarks = [] := by
  have noReaders : dropReaders text = text := by
    have absent : ∀ opening ∈ ["Scanner".toList], ¬opening <:+: text := by
      intro opening member
      rw [List.mem_singleton.1 member]
      exact not_isInfix_of_hasPair 'S' 'c' (by decide) noReader
    exact (consoleReader_opensWith.settles (by decide) absent closesLine_nil).replaceAll
      (consoleReader_opensWith.proper (by decide))
  have absent : ¬".next".toList <:+: text :=
    not_isInfix_of_hasPair 'n' 'e' (by decide) noRead
  rw [convertReads, noReaders]
  exact (readStatement_settles absent).edit readStatement_proper Pass.reading.name

end Offside
