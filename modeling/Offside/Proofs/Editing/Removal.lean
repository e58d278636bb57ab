import Offside.Proofs.Editing.Division
import Offside.Proofs.ReadLines

/-!
# Lines of a text with constructs removed

A character behind a removed construct moves up by the line ends that went with the construct. The
declarations of console readers are removed before the reads are looked for, so a remark on a read
names the line of the read among what is left. That is its line in the text as it was given exactly
if no declaration in front of it goes over several lines.
-/

namespace Offside

variable {α : Type}

/-! ## What is left -/

/-- What is left of pieces when the hits are removed. -/
def leftOver (pieces : List (Piece α)) : Text :=
  pieces.flatMap (Piece.replaced fun _ => [])

/-- The texts of the hits among pieces. -/
def hitTexts (pieces : List (Piece α)) : List Text :=
  (pieces.filterMap Piece.hit?).map Prod.fst

theorem newlines_flatMap_source (pieces : List (Piece α)) :
    newlines (pieces.flatMap Piece.source) =
      newlines (leftOver pieces) + newlines (hitTexts pieces).flatten := by
  induction pieces with
  | nil => rfl
  | cons piece pieces ih =>
      cases piece with
      | gap char =>
          have left : leftOver (.gap char :: pieces) = [char] ++ leftOver pieces := rfl
          have removed : hitTexts (.gap char :: pieces) = hitTexts pieces := rfl
          rw [List.flatMap_cons, newlines_append, ih, left, newlines_append, removed, Piece.source]
          omega
      | hit matched value =>
          have left : leftOver (.hit matched value :: pieces) = leftOver pieces := rfl
          have removed : hitTexts (.hit matched value :: pieces) = matched :: hitTexts pieces := rfl
          rw [List.flatMap_cons, newlines_append, ih, left, removed, List.flatten_cons,
            newlines_append, Piece.source]
          omega

/-- A character of what is left is the character of a gap. -/
theorem exists_of_leftOver {pieces : List (Piece α)} {front back : Text} {char : Char}
    (split : leftOver pieces = front ++ char :: back) :
    ∃ ahead behind, pieces = ahead ++ .gap char :: behind ∧ leftOver ahead = front := by
  induction pieces generalizing front with
  | nil => simp [leftOver] at split
  | cons piece pieces ih =>
      cases piece with
      | gap first =>
          have step : first :: leftOver pieces = front ++ char :: back := split
          cases front with
          | nil =>
              obtain ⟨rfl, _⟩ := List.cons.inj step
              exact ⟨[], pieces, rfl, rfl⟩
          | cons other front =>
              obtain ⟨rfl, rest⟩ := List.cons.inj step
              obtain ⟨ahead, behind, rfl, rfl⟩ := ih rest
              exact ⟨.gap first :: ahead, behind, rfl, rfl⟩
      | hit matched value =>
          obtain ⟨ahead, behind, rfl, rfl⟩ := ih split
          exact ⟨.hit matched value :: ahead, behind, rfl, rfl⟩

/-- What is left in front of a gap tells the gap from all others. -/
theorem eq_of_leftOver_eq {ahead others behind rest : List (Piece α)} {char next : Char}
    (same : ahead ++ .gap char :: behind = others ++ .gap next :: rest)
    (left : leftOver ahead = leftOver others) : ahead = others := by
  induction ahead generalizing others with
  | nil =>
      cases others with
      | nil => rfl
      | cons other others =>
          obtain ⟨rfl, _⟩ := List.cons.inj same
          cases left
  | cons piece ahead ih =>
      cases others with
      | nil =>
          obtain ⟨rfl, _⟩ := List.cons.inj same
          cases left
      | cons other others =>
          obtain ⟨rfl, tails⟩ := List.cons.inj same
          rw [ih tails (List.append_cancel_left left)]

/-- A character of a text that is still there when the hits of a recogniser are removed. -/
structure Survivor (recognizer : Recognizer α) (text : Text) where
  ahead : List (Piece α)
  char : Char
  behind : List (Piece α)
  cut : recognizer.pieces text = ahead ++ .gap char :: behind

namespace Survivor

variable {recognizer : Recognizer α} {text : Text} (place : Survivor recognizer text)

/-- What stands in front of it in the text. -/
def front : Text :=
  place.ahead.flatMap Piece.source

/-- What stands behind it in the text. -/
def back : Text :=
  place.behind.flatMap Piece.source

/-- What is left in front of it. -/
def left : Text :=
  leftOver place.ahead

/-- The constructs that are removed in front of it. -/
def removed : List Text :=
  hitTexts place.ahead

/-- The line on which it stands in the text. -/
def line : Nat :=
  1 + newlines place.front

theorem whole : place.front ++ place.char :: place.back = text := by
  have sources := recognizer.flatMap_source_pieces text
  rw [place.cut, List.flatMap_append, List.flatMap_cons] at sources
  exact sources

theorem line_eq : place.line = 1 + newlines place.left + newlines place.removed.flatten := by
  rw [line, front, newlines_flatMap_source, ← Nat.add_assoc]
  rfl

/-- A character of what is left stands at one place of the text. -/
theorem exists_unique {front back : Text} {char : Char}
    (split : recognizer.replaceAll (fun _ => []) text = front ++ char :: back) :
    ∃ place : Survivor recognizer text, place.char = char ∧ place.left = front ∧
      ∀ other : Survivor recognizer text, other.left = front → other = place := by
  obtain ⟨ahead, behind, cut, rfl⟩ := exists_of_leftOver split
  refine ⟨⟨ahead, char, behind, cut⟩, rfl, rfl, ?_⟩
  rintro ⟨others, next, rest, otherCut⟩ same
  have joined := otherCut.symm.trans cut
  obtain rfl := eq_of_leftOver_eq joined same
  obtain ⟨gaps, rfl⟩ := List.cons.inj (List.append_cancel_left joined)
  cases gaps
  rfl

end Survivor

/-! ## Reads -/

/-- The reads that are looked at, each at its place in the text without reader declarations. -/
def lookedAtReads (text : Text) : List (Occurrence ReadStatement) :=
  readStatement.occurrences (dropReaders text)

/-- Why a read is kept, if it is kept. -/
def ReadStatement.refusal? (statement : ReadStatement) : Option Reason :=
  match readValue? statement.method with
  | some _ => none
  | none => some (.unknownReadMethod statement.method)

theorem ReadStatement.reason?_verdict (statement : ReadStatement) :
    statement.verdict.reason? = statement.refusal? := by
  rw [verdict_readStatement, refusal?]
  cases readValue? statement.method <;> rfl

theorem remarks_convertReads (text : Text) :
    (convertReads text).remarks = (lookedAtReads text).filterMap fun read =>
      read.value.refusal?.map (read.remark "input") := by
  have edited :=
    (readStatement.edit_division "input" (dropReaders text) ReadStatement.verdict).2
  simp only [ReadStatement.reason?_verdict] at edited
  exact edited

/-- The place in the given text of a read among what is left. -/
theorem exists_survivor_of_read {text : Text} {read : Occurrence ReadStatement}
    (member : read ∈ lookedAtReads text) :
    ∃ place : Survivor consoleReader text, read.matched.head? = some place.char ∧
      place.left = read.front ∧
      ∀ other : Survivor consoleReader text, other.left = read.front → other = place := by
  have scans := readStatement_proper.scans (dropReaders text)
  have placed : read.front ++ (read.matched ++ read.back) = dropReaders text :=
    scans.placed read member
  have found := scans.recognised read member
  obtain ⟨char, rest, starts⟩ : ∃ char rest, read.matched = char :: rest := by
    obtain ⟨taken, nonempty, split⟩ := readStatement_proper _ _ _ _ found
    rw [List.append_cancel_right split]
    exact List.exists_cons_of_ne_nil nonempty
  rw [starts] at placed
  obtain ⟨place, isChar, rest⟩ := Survivor.exists_unique placed.symm
  exact ⟨place, by rw [starts, isChar, List.head?_cons], rest⟩

theorem newlines_flatten_eq_zero_iff (texts : List Text) :
    newlines texts.flatten = 0 ↔ ∀ text ∈ texts, '\n' ∉ text := by
  rw [newlines, List.count_eq_zero, List.mem_flatten]
  constructor
  · intro single text member inside
    exact single ⟨text, member, inside⟩
  · rintro single ⟨text, member, inside⟩
    exact single text member inside

/-- There is a remark for each read by an unknown method, in the order of the text. It names the
line of the read without the reader declarations in front of it. In the given text the read starts
as many lines further down as there are line ends in these declarations. -/
theorem convertReads_lines (text : Text) :
    readStatement.Scans none (dropReaders text) (lookedAtReads text) ∧
    ((convertReads text).remarks = (lookedAtReads text).filterMap fun read =>
      read.value.refusal?.map (read.remark "input")) ∧
    ∀ read ∈ lookedAtReads text, ∃ place : Survivor consoleReader text,
      read.matched.head? = some place.char ∧ place.left = read.front ∧
      (∀ other : Survivor consoleReader text, other.left = read.front → other = place) ∧
      place.front ++ place.char :: place.back = text ∧
      place.line = read.line + newlines place.removed.flatten ∧
      (read.line = place.line ↔ ∀ reader ∈ place.removed, '\n' ∉ reader) := by
  refine ⟨readStatement_proper.scans _, remarks_convertReads text, ?_⟩
  intro read member
  obtain ⟨place, first, left, unique⟩ := exists_survivor_of_read member
  have lines : place.line = read.line + newlines place.removed.flatten := by
    rw [place.line_eq, left]
    rfl
  refine ⟨place, first, left, unique, place.whole, lines, ?_⟩
  rw [← newlines_flatten_eq_zero_iff]
  omega

/-- A reader that is declared over two lines, and a read behind it. -/
def splitReader : Text :=
  "Scanner\nsc = new Scanner(System.in);\nx = sc.nextLong();".toList

/-- The read behind the reader. -/
def readBehind : Occurrence ReadStatement :=
  ⟨['\n'], "x = sc.nextLong();".toList, ⟨['x'], "nextLong".toList⟩, []⟩

theorem convertReads_lines_splitReader :
    readBehind ∈ lookedAtReads splitReader ∧ readBehind.line = 2 ∧
      ∃ place : Survivor consoleReader splitReader, place.char = 'x' ∧
        place.left = readBehind.front ∧ place.line = 3 ∧
        place.removed = ["Scanner\nsc = new Scanner(System.in);".toList] := by
  have only : lookedAtReads splitReader = [readBehind] := by decide +kernel
  have member : readBehind ∈ lookedAtReads splitReader := by
    rw [only]
    exact List.mem_singleton_self readBehind
  obtain ⟨place, _, _, unique, _⟩ := (convertReads_lines splitReader).2.2 readBehind member
  let there : Survivor consoleReader splitReader :=
    { ahead := [.hit "Scanner\nsc = new Scanner(System.in);".toList (), .gap '\n']
      char := 'x'
      behind := " = sc.nextLong();".toList.map .gap
      cut := by decide +kernel }
  have isPlace : there = place := unique there rfl
  subst isPlace
  exact ⟨member, rfl, there, rfl, rfl, rfl, rfl⟩

/-- The read stands on the third line, and the remark names the second. -/
theorem remarks_splitReader :
    (lines splitReader)[2]? = some "x = sc.nextLong();".toList ∧
      (convertReads splitReader).remarks =
        [{ origin := "input", line := 2, reason := .unknownReadMethod "nextLong".toList,
           snippet := "x = sc.nextLong();".toList }] := by
  decide +kernel

end Offside
