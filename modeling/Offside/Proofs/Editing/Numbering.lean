import Offside.Proofs.Editing.Removal
import Offside.Proofs.Editing.Reports
import Offside.Proofs.Editing.Splice

/-!
# Two numberings of lines

A pass that edits constructs finds the line of a byte by counting the newlines in front of it, and
the layout counts the lines that a text is cut into. An offset between two characters lies on one
line only, both ends included, and its number by the one way is its number by the other. So the
lines that remarks name can be compared, whichever pass they come from.
-/

namespace Offside

/-! ## Offsets -/

/-- An offset between two characters of a text, or at one of its ends. -/
def IsBoundary (text : Text) (offset : Nat) : Prop :=
  ∃ front back, text = front ++ back ∧ byteLength front = offset

/-- An offset between two bytes of one character. -/
def SplitsChar (text : Text) (offset : Nat) : Prop :=
  ∃ front char back, text = front ++ char :: back ∧
    byteLength front < offset ∧ offset < byteLength front + char.utf8Size

theorem splitsChar_cons {char : Char} {rest : Text} {offset : Nat} :
    SplitsChar (char :: rest) offset ↔
      (0 < offset ∧ offset < char.utf8Size) ∨
        (char.utf8Size ≤ offset ∧ SplitsChar rest (offset - char.utf8Size)) := by
  constructor
  · rintro ⟨front, other, back, split, behind, ahead⟩
    cases front with
    | nil =>
        obtain ⟨rfl, rfl⟩ := List.cons.inj split
        exact .inl ⟨behind, by simpa using ahead⟩
    | cons first front =>
        obtain ⟨rfl, rfl⟩ := List.cons.inj split
        rw [byteLength_cons] at behind ahead
        exact .inr ⟨by omega, front, other, back, rfl, by omega, by omega⟩
  · rintro (⟨behind, ahead⟩ | ⟨fits, front, other, back, rfl, behind, ahead⟩)
    · exact ⟨[], char, rest, rfl, behind, by simpa using ahead⟩
    · refine ⟨char :: front, other, back, rfl, ?_, ?_⟩ <;> rw [byteLength_cons] <;> omega

/-- There is no line past the end of a text and inside a character, and nowhere else. -/
theorem lineAt?_eq_none_iff {text : Text} {offset : Nat} :
    lineAt? text offset = none ↔ byteLength text < offset ∨ SplitsChar text offset := by
  fun_induction lineAt? text offset with
  | case1 text => simp [SplitsChar]
  | case2 offset => simp
  | case3 char rest offset fits ih =>
      rw [Option.map_eq_none_iff, ih, splitsChar_cons, byteLength_cons]
      have past : byteLength rest < offset + 1 - char.utf8Size ↔
          char.utf8Size + byteLength rest < offset + 1 := by omega
      have outside : ¬offset + 1 < char.utf8Size := by omega
      simp only [past, fits, outside, and_false, false_or, true_and]
  | case4 char rest offset short =>
      have inside : 0 < offset + 1 ∧ offset + 1 < char.utf8Size := by omega
      exact iff_of_true rfl (.inr (splitsChar_cons.2 (.inl inside)))

/-- The number of a line is one more than the number of newlines in front of the offset. -/
theorem lineAt?_eq_some_iff {text : Text} {offset number : Nat} :
    lineAt? text offset = some number ↔ ∃ front back, text = front ++ back ∧
      byteLength front = offset ∧ 1 + newlines front = number := by
  constructor
  · intro found
    fun_induction lineAt? text offset generalizing number with
    | case1 text =>
        cases found
        exact ⟨[], text, rfl, rfl, rfl⟩
    | case2 offset => cases found
    | case3 char rest offset fits ih =>
        obtain ⟨line, inRest, rfl⟩ := Option.map_eq_some_iff.1 found
        obtain ⟨front, back, rfl, size, rfl⟩ := ih inRest
        refine ⟨char :: front, back, rfl, ?_, ?_⟩
        · rw [byteLength_cons, size]
          omega
        · rw [newlines_cons]
          split <;> rfl
    | case4 char rest offset short => cases found
  · rintro ⟨front, back, rfl, rfl, rfl⟩
    exact lineAt?_append front back

theorem lineAt?_mono {text : Text} {offset later number other : Nat} (le : offset ≤ later)
    (found : lineAt? text offset = some number) (foundLater : lineAt? text later = some other) :
    number ≤ other := by
  obtain ⟨front, back, split, rfl, rfl⟩ := lineAt?_eq_some_iff.1 found
  obtain ⟨longer, behind, splitLater, rfl, rfl⟩ := lineAt?_eq_some_iff.1 foundLater
  have starts : front <+: longer := isPrefix_of_byteLength_le (split.symm.trans splitLater) le
  exact Nat.add_le_add_left (starts.sublist.count_le '\n') 1

/-! ## Lines in their order -/

theorem length_lines (text : Text) : (lines text).length = newlines text + 1 := by
  induction text with
  | nil => rfl
  | cons char rest ih =>
      rw [newlines_cons]
      by_cases newline : char = '\n'
      · rw [lines, if_pos newline, if_pos newline, List.length_cons, ih]
      · obtain ⟨first, others, cut⟩ := List.exists_cons_of_ne_nil (lines_ne_nil rest)
        rw [lines_cons_of_ne newline cut, if_neg newline, ← ih, cut]
        rfl

/-- Lines with the newlines behind them. -/
def endedLines (texts : List Text) : Text :=
  texts.flatMap (· ++ ['\n'])

/-- The lines in front of a line are ended by newlines. -/
theorem unlines_append_cons (start : List Text) (line : Text) (rest : List Text) :
    unlines (start ++ line :: rest) = endedLines start ++ unlines (line :: rest) := by
  induction start with
  | nil => rfl
  | cons text start ih =>
      rw [List.cons_append, unlines_cons (by simp), ih]
      simp [endedLines]

/-- A line stands behind the lines in front of it. -/
theorem exists_split_of_getElem? {text line : Text} {index : Nat}
    (found : (lines text)[index]? = some line) :
    ∃ back, text = endedLines ((lines text).take index) ++ (line ++ back) := by
  obtain ⟨inside, same⟩ := List.getElem?_eq_some_iff.1 found
  have cut : (lines text).take index ++ line :: (lines text).drop (index + 1) = lines text := by
    rw [← same, List.getElem_cons_drop, List.take_append_drop]
  have joined := unlines_append_cons ((lines text).take index) line ((lines text).drop (index + 1))
  rw [cut, unlines_lines] at joined
  obtain ⟨back, starts⟩ : ∃ back,
      unlines (line :: (lines text).drop (index + 1)) = line ++ back := by
    cases (lines text).drop (index + 1) with
    | nil => exact ⟨[], (List.append_nil line).symm⟩
    | cons next others => exact ⟨_, unlines_cons_cons line next others⟩
  rw [starts] at joined
  exact ⟨back, joined⟩

/-- Offset of the first byte of a line, counted from zero, among lines that are joined. -/
def lineStart (texts : List Text) (index : Nat) : Nat :=
  byteLength (endedLines (texts.take index))

theorem lineStart_succ {texts : List Text} {index : Nat} {line : Text}
    (found : texts[index]? = some line) :
    lineStart texts (index + 1) = lineStart texts index + byteLength line + 1 := by
  have size : '\n'.utf8Size = 1 := rfl
  simp [lineStart, endedLines, List.take_add_one, found, size, Nat.add_assoc]

theorem lineStart_mono {texts : List Text} {index later : Nat} (le : index ≤ later) :
    lineStart texts index ≤ lineStart texts later := by
  obtain ⟨more, rfl⟩ := Nat.exists_eq_add_of_le le
  rw [lineStart, lineStart, List.take_add, endedLines, endedLines, List.flatMap_append,
    byteLength_append]
  exact Nat.le_add_right _ _

/-- An offset lies on a line, counted from zero, or at one of its ends. -/
def LiesOn (text : Text) (offset index : Nat) : Prop :=
  ∃ line, (lines text)[index]? = some line ∧ lineStart (lines text) index ≤ offset ∧
    offset ≤ lineStart (lines text) index + byteLength line

namespace LiesOn

variable {text : Text} {offset index : Nat}

theorem lt_length (lies : LiesOn text offset index) : index < (lines text).length := by
  obtain ⟨line, found, _⟩ := lies
  exact (List.getElem?_eq_some_iff.1 found).1

theorem le_of_liesOn {other : Nat} (lies : LiesOn text offset index)
    (liesOther : LiesOn text offset other) : other ≤ index := by
  obtain ⟨line, found, _, ends⟩ := lies
  obtain ⟨_, _, starts, _⟩ := liesOther
  -- Between the end of a line and the start of the next one there is the byte of the newline.
  by_contra later
  have behind : lineStart (lines text) (index + 1) ≤ lineStart (lines text) other :=
    lineStart_mono (by omega)
  rw [lineStart_succ found] at behind
  omega

theorem unique {other : Nat} (lies : LiesOn text offset index)
    (liesOther : LiesOn text offset other) : index = other :=
  Nat.le_antisymm (liesOther.le_of_liesOn lies) (lies.le_of_liesOn liesOther)

/-- The end of a text lies on the line that is reached by its newlines, whatever follows. -/
theorem append (front back : Text) :
    LiesOn (front ++ back) (byteLength front) (newlines front) := by
  -- The last line of the front goes on with the first line of the back: this is the line.
  obtain ⟨first, others, cut⟩ := List.exists_cons_of_ne_nil (lines_ne_nil back)
  obtain ⟨start, last, cutFront, cutBoth⟩ := lines_append front cut
  have count : start.length = newlines front := by
    have length := length_lines front
    rw [cutFront, List.length_append] at length
    simpa using length
  have split : front = endedLines start ++ last := by
    rw [← unlines_lines front, cutFront, unlines_append_cons, unlines_singleton]
  have length : byteLength front = byteLength (endedLines start) + byteLength last := by
    rw [← byteLength_append, ← split]
  have begins : lineStart (lines (front ++ back)) (newlines front) =
      byteLength (endedLines start) := by
    rw [lineStart, cutBoth, ← count, List.take_left]
  refine ⟨last ++ first, ?_, by omega, ?_⟩
  · rw [cutBoth, ← count]
    simp
  · rw [byteLength_append]
    omega

end LiesOn

/-- Counting newlines and counting lines give the same number. -/
theorem lineAt?_eq_some_iff_liesOn {text : Text} {offset number : Nat} :
    lineAt? text offset = some number ↔
      IsBoundary text offset ∧ 1 ≤ number ∧ number ≤ (lines text).length ∧
        LiesOn text offset (number - 1) := by
  constructor
  · intro found
    obtain ⟨front, back, rfl, rfl, rfl⟩ := lineAt?_eq_some_iff.1 found
    have lies := LiesOn.append front back
    have within := lies.lt_length
    refine ⟨⟨front, back, rfl, rfl⟩, by omega, by omega, ?_⟩
    rwa [Nat.add_sub_cancel_left]
  · rintro ⟨⟨front, back, rfl, rfl⟩, positive, _, lies⟩
    have same := lies.unique (LiesOn.append front back)
    rw [lineAt?_append, Option.some.injEq]
    omega

/-! ## Lines of remarks -/

/-- A remark quotes a construct, and its line is the one on which the construct starts, in both
numberings. -/
structure Remark.PlacedAt {α : Type} (remark : Remark) (occurrence : Occurrence α) : Prop where
  snippet : remark.snippet = occurrence.matched
  counted : lineAt? occurrence.whole occurrence.start = some remark.line
  listed : LiesOn occurrence.whole occurrence.start (remark.line - 1)

theorem Occurrence.placedAt_remark {α : Type} (occurrence : Occurrence α) (origin : String)
    (reason : Reason) : (occurrence.remark origin reason).PlacedAt occurrence where
  snippet := rfl
  counted := occurrence.lineAt?_start
  listed := (lineAt?_eq_some_iff_liesOn.1 occurrence.lineAt?_start).2.2.2

/-- The remarks on constructs are placed at them. -/
theorem Recognizer.Scans.exists_placedAt {α : Type} {recognizer : Recognizer α} {text : Text}
    {found : List (Occurrence α)} (scans : recognizer.Scans none text found) {origin : String}
    {reason? : α → Option Reason} {remark : Remark}
    (member : remark ∈ found.filterMap fun occurrence =>
      (reason? occurrence.value).map (occurrence.remark origin)) :
    ∃ occurrence ∈ found, occurrence.whole = text ∧ remark.PlacedAt occurrence := by
  obtain ⟨occurrence, inFound, remarked⟩ := List.mem_filterMap.1 member
  obtain ⟨reason, _, rfl⟩ := Option.map_eq_some_iff.1 remarked
  exact ⟨occurrence, inFound, scans.placed occurrence inFound,
    occurrence.placedAt_remark origin reason⟩

/-- The remark on a line is placed at what the line holds apart from the blanks around it. -/
theorem exists_placedAt_strayRemark {text line : Text} {index : Nat}
    (found : (lines text)[index]? = some line) :
    ∃ closing : Occurrence Unit, closing.whole = text ∧
      (strayRemark (1 + index) line).PlacedAt closing := by
  obtain ⟨back, split⟩ := exists_split_of_getElem? found
  obtain ⟨left, right, _, _, surrounded⟩ := exists_surrounded_trim line
  let closing : Occurrence Unit :=
    ⟨endedLines ((lines text).take index) ++ left, trim line, (), right ++ back⟩
  have whole : closing.whole = text := by
    calc closing.whole
      _ = endedLines ((lines text).take index) ++ (left ++ trim line ++ right ++ back) := by
          simp only [closing, Occurrence.whole, List.append_assoc]
      _ = text := by rw [← surrounded, ← split]
  have lies : LiesOn text closing.start index := by
    have start : closing.start = lineStart (lines text) index + byteLength left :=
      byteLength_append _ _
    have length : byteLength line =
        byteLength left + byteLength (trim line) + byteLength right := by
      rw [← byteLength_append, ← byteLength_append, ← surrounded]
    exact ⟨line, found, by omega, by omega⟩
  -- The blanks in front are part of the line, so the construct starts on it.
  have counted : lineAt? text closing.start = some (1 + index) := by
    rw [lineAt?_eq_some_iff_liesOn, Nat.add_sub_cancel_left]
    have within := lies.lt_length
    exact ⟨⟨_, _, whole.symm, rfl⟩, by omega, by omega, lies⟩
  refine ⟨closing, whole, rfl, ?_, ?_⟩
  · rw [whole]
    exact counted
  · rw [whole]
    exact (lineAt?_eq_some_iff_liesOn.1 counted).2.2.2

/-- The line of a byte offset and the lines of a text are numbered alike. There is no line past the
end and inside a character. Elsewhere the line of an offset is the one entry of the list of lines
that the offset lies on, and later offsets do not lie on earlier lines. The remarks on reads, loops
and print calls and those of the layout name the lines by this numbering: on reads that of the text
without reader declarations, on all others that of the text as it is given. -/
theorem numberings_agree (text : Text) :
    (∀ offset, lineAt? text offset = none ↔ byteLength text < offset ∨ SplitsChar text offset) ∧
    (∀ offset number, lineAt? text offset = some number ↔
      IsBoundary text offset ∧ 1 ≤ number ∧ number ≤ (lines text).length ∧
        LiesOn text offset (number - 1)) ∧
    (∀ offset later number other, offset ≤ later → lineAt? text offset = some number →
      lineAt? text later = some other → number ≤ other) ∧
    (∀ remark ∈ (convertReads text).remarks, ∃ read ∈ lookedAtReads text,
      read.whole = dropReaders text ∧ remark.PlacedAt read) ∧
    (∀ remark ∈ (convertLoops text).remarks, ∃ loop ∈ countedLoop.occurrences text,
      loop.whole = text ∧ remark.PlacedAt loop) ∧
    (∀ remark ∈ (convertPrints text).remarks, ∃ call ∈ printStatement.occurrences text,
      call.whole = text ∧ remark.PlacedAt call) ∧
    ∀ remark ∈ (convertLayout text).remarks, ∃ index line, ∃ closing : Occurrence Unit,
      (lines text)[index]? = some line ∧ remark.line = index + 1 ∧ remark.snippet = trim line ∧
        closing.whole = text ∧ remark.PlacedAt closing := by
  refine ⟨fun _ => lineAt?_eq_none_iff, fun _ _ => lineAt?_eq_some_iff_liesOn,
    fun _ _ _ _ => lineAt?_mono, ?reads, ?loops, ?prints, ?layout⟩
  case reads =>
    intro remark member
    rw [remarks_convertReads] at member
    exact (readStatement_proper.scans _).exists_placedAt member
  case loops =>
    intro remark member
    have reports := convertLoops_reports text
    rw [reports.remarks] at member
    exact reports.scans.exists_placedAt member
  case prints =>
    intro remark member
    have reports := convertPrints_reports text
    rw [reports.remarks] at member
    exact reports.scans.exists_placedAt member
  case layout =>
    intro remark member
    obtain ⟨index, line, found, _, rfl⟩ := Layout.exists_of_mem_remarks member
    obtain ⟨closing, whole, placed⟩ := exists_placedAt_strayRemark found
    exact ⟨index, line, closing, found, Nat.add_comm 1 index, rfl, whole, placed⟩

/-- A character of two bytes, and behind it a line for each of the four passes to remark on. -/
def remarkedLines : Text :=
  "é\n\x7d\nx = s.nextB();\nSystem.out.print(\"+\");\nfor (i = 0; i < n; i *= 2)".toList

theorem numberings_agree_remarkedLines :
    (lineAt? remarkedLines 1 = none ∧ SplitsChar remarkedLines 1) ∧
    (lineAt? remarkedLines 2 = some 1 ∧ LiesOn remarkedLines 2 0) ∧
    (2 ≤ 3 ∧ lineAt? remarkedLines 3 = some 2 ∧ 1 ≤ 2) ∧
    (∃ remark ∈ (convertReads remarkedLines).remarks, remark.line = 3 ∧
      ∃ read ∈ lookedAtReads remarkedLines,
        read.whole = dropReaders remarkedLines ∧ remark.PlacedAt read) ∧
    (∃ remark ∈ (convertPrints remarkedLines).remarks, remark.line = 4 ∧
      ∃ call ∈ printStatement.occurrences remarkedLines,
        call.whole = remarkedLines ∧ remark.PlacedAt call) ∧
    (∃ remark ∈ (convertLoops remarkedLines).remarks, remark.line = 5 ∧
      ∃ loop ∈ countedLoop.occurrences remarkedLines,
        loop.whole = remarkedLines ∧ remark.PlacedAt loop) ∧
    ∃ remark ∈ (convertLayout remarkedLines).remarks, remark.line = 2 ∧
      ∃ closing : Occurrence Unit, closing.whole = remarkedLines ∧ remark.PlacedAt closing := by
  obtain ⟨missing, numbered, mono, reads, loops, prints, layout⟩ := numberings_agree remarkedLines
  have inside : lineAt? remarkedLines 1 = none := by decide
  have first : lineAt? remarkedLines 2 = some 1 := by decide
  have second : lineAt? remarkedLines 3 = some 2 := by decide
  have within : ¬byteLength remarkedLines < 1 := by decide
  obtain ⟨⟨read, readIn, third⟩, ⟨call, callIn, fourth⟩, ⟨loop, loopIn, fifth⟩,
      stray, strayIn, isSecond⟩ :
      (∃ remark ∈ (convertReads remarkedLines).remarks, remark.line = 3) ∧
      (∃ remark ∈ (convertPrints remarkedLines).remarks, remark.line = 4) ∧
      (∃ remark ∈ (convertLoops remarkedLines).remarks, remark.line = 5) ∧
      ∃ remark ∈ (convertLayout remarkedLines).remarks, remark.line = 2 := by
    decide +kernel
  obtain ⟨_, _, closing, _, _, _, whole, placed⟩ := layout stray strayIn
  exact ⟨⟨inside, ((missing 1).1 inside).resolve_left within⟩,
    ⟨first, ((numbered 2 1).1 first).2.2.2⟩,
    ⟨by decide, second, mono 2 3 1 2 (by decide) first second⟩,
    ⟨read, readIn, third, reads read readIn⟩, ⟨call, callIn, fourth, prints call callIn⟩,
    ⟨loop, loopIn, fifth, loops loop loopIn⟩, stray, strayIn, isSecond, closing, whole, placed⟩

end Offside
