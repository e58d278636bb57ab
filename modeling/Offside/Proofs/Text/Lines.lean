import Offside.Proofs.Text.Trimming
import Offside.Text.Line

/-!
# Cutting and joining lines

Cutting a text into lines and joining lines are inverse to each other, as long as no line
holds a newline. Trimming a joined text takes away the blank lines at both ends and nothing
else, provided that the lines between them are trimmed at the right places.
-/

namespace Offside

/-! ## Cutting -/

theorem lines_append_newline (left right : Text) :
    lines (left ++ '\n' :: right) = lines left ++ lines right := by
  induction left with
  | nil => simp [lines]
  | cons char rest ih =>
      simp only [List.cons_append, lines, ih]
      split
      · rfl
      · cases cut : lines rest with
        | nil => exact absurd cut (lines_ne_nil rest)
        | cons line others => rfl

theorem lines_of_notMem {text : Text} (single : '\n' ∉ text) : lines text = [text] := by
  induction text with
  | nil => rfl
  | cons char rest ih =>
      simp only [List.mem_cons, not_or] at single
      simp [lines, Ne.symm single.1, ih single.2]

/-- No line holds a newline. -/
theorem newline_notMem_of_mem_lines {text line : Text} (member : line ∈ lines text) :
    '\n' ∉ line := by
  induction text generalizing line with
  | nil =>
      rw [lines, List.mem_singleton] at member
      simp [member]
  | cons char rest ih =>
      simp only [lines] at member
      split at member
      · rcases List.mem_cons.1 member with rfl | member
        · simp
        · exact ih member
      · next notNewline =>
          cases cut : lines rest with
          | nil => exact absurd cut (lines_ne_nil rest)
          | cons first others =>
              rw [cut] at ih member
              rcases List.mem_cons.1 member with rfl | member
              · simp [Ne.symm notNewline, ih (List.mem_cons_self)]
              · exact ih (List.mem_cons_of_mem _ member)

theorem newlines_cons (char : Char) (rest : Text) :
    newlines (char :: rest) = newlines rest + if char = '\n' then 1 else 0 := by
  simp [newlines, List.count_cons]

theorem newlines_append (left right : Text) :
    newlines (left ++ right) = newlines left + newlines right :=
  List.count_append

/-! ## Joining -/

@[simp] theorem unlines_singleton (text : Text) : unlines [text] = text := rfl

@[simp] theorem unlines_cons_cons (text next : Text) (rest : List Text) :
    unlines (text :: next :: rest) = text ++ '\n' :: unlines (next :: rest) := by
  simp [unlines, joinWith]

theorem unlines_cons {texts : List Text} (nonempty : texts ≠ []) (text : Text) :
    unlines (text :: texts) = text ++ '\n' :: unlines texts := by
  cases texts with
  | nil => exact absurd rfl nonempty
  | cons next rest => exact unlines_cons_cons text next rest

theorem unlines_append {left right : List Text} (leftNonempty : left ≠ [])
    (rightNonempty : right ≠ []) :
    unlines (left ++ right) = unlines left ++ '\n' :: unlines right := by
  induction left with
  | nil => exact absurd rfl leftNonempty
  | cons text rest ih =>
      cases rest with
      | nil => exact unlines_cons rightNonempty text
      | cons next others =>
          rw [List.cons_append, unlines_cons (by simp), ih (by simp)]
          simp

/-- Joining adds nothing but separators. -/
theorem mem_of_mem_joinWith {separator : Text} {texts : List Text} {char : Char}
    (member : char ∈ joinWith separator texts) :
    char ∈ separator ∨ ∃ text ∈ texts, char ∈ text := by
  induction texts with
  | nil => cases member
  | cons text rest ih =>
      cases rest with
      | nil => exact .inr ⟨text, List.mem_singleton_self text, member⟩
      | cons next others =>
          rw [joinWith, List.mem_append, List.mem_append] at member
          · rcases member with (inText | inSeparator) | later
            · exact .inr ⟨text, List.mem_cons_self, inText⟩
            · exact .inl inSeparator
            · rcases ih later with inSeparator | ⟨other, inRest, inOther⟩
              · exact .inl inSeparator
              · exact .inr ⟨other, List.mem_cons_of_mem text inRest, inOther⟩
          · exact List.cons_ne_nil next others

/-- Cutting undoes joining. -/
theorem lines_unlines {texts : List Text} (nonempty : texts ≠ [])
    (single : ∀ text ∈ texts, '\n' ∉ text) : lines (unlines texts) = texts := by
  induction texts with
  | nil => exact absurd rfl nonempty
  | cons text rest ih =>
      have textSingle := single text List.mem_cons_self
      cases rest with
      | nil => exact lines_of_notMem textSingle
      | cons next others =>
          rw [unlines_cons_cons, lines_append_newline, lines_of_notMem textSingle,
            ih (by simp) fun other member => single other (List.mem_cons_of_mem _ member)]
          rfl

/-- Texts that are joined keep their lines. -/
theorem lines_unlines_eq_flatMap {texts : List Text} (nonempty : texts ≠ []) :
    lines (unlines texts) = texts.flatMap lines := by
  induction texts with
  | nil => exact absurd rfl nonempty
  | cons text rest ih =>
      cases rest with
      | nil => simp
      | cons next others =>
          have tail := ih (List.cons_ne_nil next others)
          rw [unlines_cons_cons, lines_append_newline, tail]
          rfl

/-- The trimmed lines of a text. -/
def trimmedLines (text : Text) : List Text :=
  (lines text).map trim

theorem trimmedLines_unlines {texts : List Text} (nonempty : texts ≠ []) :
    trimmedLines (unlines texts) = texts.flatMap trimmedLines := by
  rw [trimmedLines, lines_unlines_eq_flatMap nonempty, List.map_flatMap]
  rfl

theorem isInfix_unlines {texts : List Text} {text : Text} (member : text ∈ texts) :
    text <:+: unlines texts := by
  obtain ⟨front, back, rfl⟩ := List.append_of_mem member
  have starts : text <+: unlines (text :: back) := by
    cases back with
    | nil => exact List.prefix_rfl
    | cons next others =>
        rw [unlines_cons_cons]
        exact List.prefix_append _ _
  cases front with
  | nil => exact starts.isInfix
  | cons first others =>
      rw [unlines_append (List.cons_ne_nil first others) (List.cons_ne_nil text back)]
      exact starts.isInfix.trans
        ((List.suffix_cons '\n' _).trans (List.suffix_append _ _)).isInfix

/-- A line is a part of its text. -/
theorem isInfix_of_mem_lines {text line : Text} (member : line ∈ lines text) : line <:+: text := by
  have inJoined := isInfix_unlines member
  rwa [unlines_lines] at inJoined

/-! ## Blank lines at the ends -/

private theorem allBlank_newline : AllBlank ['\n'] := by
  intro char member
  rw [List.mem_singleton] at member
  subst member
  decide

/-- Blank lines in front of others are blanks in front of their text. -/
theorem exists_unlines_append_left {front core : List Text}
    (blank : ∀ text ∈ front, AllBlank text) (nonempty : core ≠ []) :
    ∃ blanks, AllBlank blanks ∧ unlines (front ++ core) = blanks ++ unlines core := by
  induction front with
  | nil => exact ⟨[], allBlank_nil, rfl⟩
  | cons text rest ih =>
      obtain ⟨blanks, blanksBlank, joined⟩ :=
        ih fun other member => blank other (List.mem_cons_of_mem _ member)
      refine ⟨text ++ ['\n'] ++ blanks, ?_, ?_⟩
      · exact allBlank_append
          (allBlank_append (blank text List.mem_cons_self) allBlank_newline) blanksBlank
      · rw [List.cons_append, unlines_cons (by simp [nonempty]), joined]
        simp

/-- Blank lines join to a blank text. -/
theorem allBlank_unlines {texts : List Text} (blank : ∀ text ∈ texts, AllBlank text) :
    AllBlank (unlines texts) := by
  induction texts with
  | nil => exact allBlank_nil
  | cons text rest ih =>
      have textBlank := blank text List.mem_cons_self
      cases rest with
      | nil => exact textBlank
      | cons next others =>
          rw [unlines_cons_cons]
          apply allBlank_append textBlank
          apply allBlank_append allBlank_newline
          exact ih fun other member => blank other (List.mem_cons_of_mem _ member)

/-- Blank lines behind others are blanks behind their text. -/
theorem exists_unlines_append_right {core back : List Text}
    (blank : ∀ text ∈ back, AllBlank text) (nonempty : core ≠ []) :
    ∃ blanks, AllBlank blanks ∧ unlines (core ++ back) = unlines core ++ blanks := by
  cases back with
  | nil => exact ⟨[], allBlank_nil, by simp⟩
  | cons text rest =>
      refine ⟨'\n' :: unlines (text :: rest), ?_, unlines_append nonempty (by simp)⟩
      exact allBlank_append allBlank_newline (allBlank_unlines blank)

theorem startsSolid_unlines {text : Text} (nonempty : text ≠ []) (solid : StartsSolid text)
    (rest : List Text) : StartsSolid (unlines (text :: rest)) := by
  cases rest with
  | nil => exact solid
  | cons next others =>
      rw [unlines_cons_cons]
      exact solid.append nonempty

theorem endsSolid_unlines {text : Text} (nonempty : text ≠ []) (solid : EndsSolid text)
    (start : List Text) : EndsSolid (unlines (start ++ [text])) := by
  cases start with
  | nil => exact solid
  | cons first others =>
      rw [unlines_append (by simp) (by simp), unlines_singleton, List.append_cons]
      exact solid.append nonempty

/-- Trimming a joined text takes away the blank lines around its solid lines. -/
theorem trim_unlines {front core back : List Text} (frontBlank : ∀ text ∈ front, AllBlank text)
    (backBlank : ∀ text ∈ back, AllBlank text) (nonempty : core ≠ [])
    (starts : StartsSolid (unlines core)) (ends : EndsSolid (unlines core)) :
    trim (unlines (front ++ core ++ back)) = unlines core := by
  rw [List.append_assoc]
  have behind : core ++ back ≠ [] := by simp [nonempty]
  obtain ⟨left, leftBlank, joinedLeft⟩ := exists_unlines_append_left frontBlank behind
  obtain ⟨right, rightBlank, joinedRight⟩ := exists_unlines_append_right backBlank nonempty
  rw [joinedLeft, joinedRight, ← List.append_assoc]
  exact trim_surrounded leftBlank rightBlank starts ends

/-- Nothing is left of blank lines. -/
theorem trim_unlines_of_blank {texts : List Text} (blank : ∀ text ∈ texts, AllBlank text) :
    trim (unlines texts) = [] := by
  have trimmed :=
    trim_surrounded (allBlank_unlines blank) allBlank_nil startsSolid_nil endsSolid_nil
  simpa using trimmed

/-! ## Blanks at the ends of a text -/

theorem lines_cons_of_ne {char : Char} (notNewline : char ≠ '\n') {text first : Text}
    {others : List Text} (cut : lines text = first :: others) :
    lines (char :: text) = (char :: first) :: others := by
  simp [lines, notNewline, cut]

/-- Of two texts, the last line of the one and the first line of the other are put together. -/
theorem lines_append (left : Text) {right first : Text} {others : List Text}
    (cut : lines right = first :: others) :
    ∃ start last, lines left = start ++ [last] ∧
      lines (left ++ right) = start ++ (last ++ first) :: others := by
  induction left with
  | nil => exact ⟨[], [], rfl, cut⟩
  | cons char left ih =>
      obtain ⟨start, last, cutLeft, cutBoth⟩ := ih
      by_cases newline : char = '\n'
      · exact ⟨[] :: start, last, by simp [lines, newline, cutLeft],
          by simp [lines, newline, cutBoth]⟩
      · cases start with
        | nil => exact ⟨[], char :: last, lines_cons_of_ne newline cutLeft,
            lines_cons_of_ne newline cutBoth⟩
        | cons line start => exact ⟨(char :: line) :: start, last, lines_cons_of_ne newline cutLeft,
            lines_cons_of_ne newline cutBoth⟩

/-- A text without newlines is put in front of the first line. -/
theorem lines_append_of_notMem {left right first : Text} {others : List Text}
    (single : '\n' ∉ left) (cut : lines right = first :: others) :
    lines (left ++ right) = (left ++ first) :: others := by
  obtain ⟨start, last, cutLeft, cutBoth⟩ := lines_append left cut
  rw [lines_of_notMem single, eq_comm, List.append_eq_singleton_iff] at cutLeft
  rcases cutLeft with ⟨rfl, isLast⟩ | ⟨_, impossible⟩
  · rw [cutBoth, (List.singleton_inj.1 isLast)]
    rfl
  · cases impossible

/-- The lines of a blank text are blank. -/
theorem allBlank_of_mem_lines {text line : Text} (blank : AllBlank text)
    (member : line ∈ lines text) : AllBlank line :=
  fun char inLine => blank char ((isInfix_of_mem_lines member).subset inLine)

/-- Trimming a text takes blank lines off both ends, and blanks off the lines. -/
theorem exists_lines_trim (text : Text) :
    ∃ front core back, lines text = front ++ core ++ back ∧ (∀ line ∈ front, AllBlank line) ∧
      (∀ line ∈ back, AllBlank line) ∧ core.map trim = trimmedLines (trim text) := by
  obtain ⟨left, right, leftBlank, rightBlank, split⟩ := exists_surrounded_trim text
  -- The trimmed text has a last line, to which the blanks behind it are added.
  obtain ⟨behind, back, cutRight⟩ := List.exists_cons_of_ne_nil (lines_ne_nil right)
  obtain ⟨start, last, cutTrim, cutBehind⟩ := lines_append (trim text) cutRight
  have behindBlank : AllBlank behind :=
    allBlank_of_mem_lines rightBlank (cutRight ▸ List.mem_cons_self)
  have backBlank : ∀ line ∈ back, AllBlank line := fun line member =>
    allBlank_of_mem_lines rightBlank (cutRight ▸ List.mem_cons_of_mem behind member)
  -- And a first line, to which the blanks in front of it are added.
  obtain ⟨first, others, shape⟩ : ∃ first others, start ++ [last ++ behind] = first :: others :=
    List.exists_cons_of_ne_nil (by simp)
  have cutBoth : lines (trim text ++ right) = first :: (others ++ back) := by
    rw [cutBehind, List.append_cons, shape, List.cons_append]
  obtain ⟨front, ahead, cutLeft, cut⟩ := lines_append left cutBoth
  have aheadBlank : AllBlank ahead := allBlank_of_mem_lines leftBlank (by simp [cutLeft])
  have frontBlank : ∀ line ∈ front, AllBlank line := fun line member =>
    allBlank_of_mem_lines leftBlank (cutLeft ▸ List.mem_append_left _ member)
  refine ⟨front, (ahead ++ first) :: others, back, ?_, frontBlank, backBlank, ?_⟩
  · rw [split, List.append_assoc, cut]
    simp
  · calc ((ahead ++ first) :: others).map trim
      _ = (first :: others).map trim := by simp [trim_append_left aheadBlank]
      _ = (start ++ [last ++ behind]).map trim := by rw [shape]
      _ = (start ++ [last]).map trim := by simp [trim_append_right behindBlank]
      _ = trimmedLines (trim text) := by rw [trimmedLines, cutTrim]

end Offside
