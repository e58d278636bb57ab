import Mathlib.Data.List.Infix
import Mathlib.Data.Option.Basic
import Offside.Proofs.Text.Spans
import Offside.Proofs.Text.Splicing
import Offside.Proofs.Text.Token

/-!
# What recognisers take and leave

The steps of a recogniser leave an end of the text they are given. A construct that has to
start with a fixed text is therefore proper, and is not recognised where no such text stands.
-/

namespace Offside

/-! ## Ends of a text -/

theorem skipBlanks_suffix (text : Text) : skipBlanks text <:+ text :=
  List.dropWhile_suffix isBlank

theorem expect?_suffix {fixed text rest : Text} (found : expect? fixed text = some rest) :
    rest <:+ text :=
  ⟨fixed, (expect?_eq_some.1 found).symm⟩

theorem skipSome?_suffix {member : Char → Bool} {text rest : Text}
    (found : skipSome? member text = some rest) : rest <:+ text := by
  cases text with
  | nil => cases found
  | cons char text =>
      rw [skipSome?, Option.ite_none_right_eq_some, Option.some.injEq] at found
      rw [← found.2]
      exact (List.dropWhile_suffix member).trans (List.suffix_cons char text)

theorem word?_eq_some {text word rest : Text} (found : word? text = some (word, rest)) :
    word ≠ [] ∧ text = word ++ rest := by
  rw [word?] at found
  split at found
  · cases found
  · next nonempty =>
      cases found
      exact ⟨nonempty, List.takeWhile_append_dropWhile.symm⟩

theorem isWord_of_word? {text word rest : Text} (found : word? text = some (word, rest)) :
    IsWord word := by
  refine ⟨(word?_eq_some found).1, ?_⟩
  rw [word?] at found
  split at found
  · cases found
  · cases found
    exact List.all_eq_true.1 List.all_takeWhile

theorem word?_suffix {text word rest : Text} (found : word? text = some (word, rest)) :
    rest <:+ text :=
  ⟨word, (word?_eq_some found).2.symm⟩

/-- What a search for the shortest start finds was found at an end of the text. -/
theorem shortest?_eq_some {β : Type} {stop? : Text → Option β} {text start : Text} {found : β}
    (stopped : shortest? stop? text = some (start, found)) :
    ∃ rest, text = start ++ rest ∧ stop? rest = some found := by
  induction text generalizing start with
  | nil =>
      simp only [shortest?, Option.map_eq_some_iff, Prod.mk.injEq] at stopped
      obtain ⟨_, stops, rfl, rfl⟩ := stopped
      exact ⟨[], rfl, stops⟩
  | cons char text ih =>
      rw [shortest?] at stopped
      split at stopped
      · next stops =>
          cases stopped
          exact ⟨char :: text, rfl, stops⟩
      · rw [Option.ite_none_left_eq_some, Option.map_eq_some_iff] at stopped
        obtain ⟨_, ⟨tail, _⟩, stoppedTail, same⟩ := stopped
        cases same
        obtain ⟨rest, split, stops⟩ := ih stoppedTail
        exact ⟨rest, congrArg (char :: ·) split, stops⟩

/-- The shortest start ends where it can end, if it can end nowhere before. -/
theorem shortest?_append {β : Type} {stop? : Text → Option β} {start rest : Text} {found : β}
    (single : '\n' ∉ start)
    (earlier : ∀ back, back ≠ [] → back <:+ start → stop? (back ++ rest) = none)
    (stops : stop? rest = some found) :
    shortest? stop? (start ++ rest) = some (start, found) := by
  induction start with
  | nil => cases rest <;> simp [shortest?, stops]
  | cons char start ih =>
      have missing := earlier (char :: start) (List.cons_ne_nil char start) List.suffix_rfl
      have tail := ih (fun member => single (List.mem_cons_of_mem char member))
        fun back nonempty suffix =>
          earlier back nonempty (suffix.trans (List.suffix_cons char start))
      have notNewline : char ≠ '\n' := by
        rintro rfl
        exact single List.mem_cons_self
      rw [List.cons_append] at missing ⊢
      simp [shortest?, missing, notNewline, tail]

/-- A start without the character that ends it is found as a whole. -/
theorem shortest?_append_of_notMem {β : Type} {stop? : Text → Option β} {start rest : Text}
    {found : β} {mark : Char} (marked : ∀ char text, char ≠ mark → stop? (char :: text) = none)
    (single : '\n' ∉ start) (free : mark ∉ start) (stops : stop? rest = some found) :
    shortest? stop? (start ++ rest) = some (start, found) := by
  refine shortest?_append single ?_ stops
  intro back nonempty suffix
  cases back with
  | nil => exact absurd rfl nonempty
  | cons char back =>
      apply marked
      rintro rfl
      exact free (suffix.subset List.mem_cons_self)

theorem expect?_eq_none {fixed text : Text} (missing : ¬fixed <+: text) :
    expect? fixed text = none := by
  cases expected : expect? fixed text with
  | none => rfl
  | some rest => exact absurd ⟨rest, (expect?_eq_some.1 expected).symm⟩ missing

theorem expect?_cons_of_ne {wanted char : Char} (other : char ≠ wanted) (fixed text : Text) :
    expect? (wanted :: fixed) (char :: text) = none :=
  if_neg other

/-- A word can start behind blanks. -/
theorem opensWord_passed_of_blank {blanks : Text} (blank : AllBlank blanks)
    {before : Option Char} (opens : opensWord before = true) :
    opensWord (passed before blanks) = true := by
  induction blanks generalizing before with
  | nil => exact opens
  | cons char blanks ih =>
      apply ih fun other member => blank other (List.mem_cons_of_mem char member)
      simp [opensWord, isWordChar_of_isBlank (blank char List.mem_cons_self)]

/-! ## Parts of a text -/

theorem not_isInfix_of_notMem {char : Char} {opening text : Text} (inside : char ∈ opening)
    (missing : char ∉ text) : ¬opening <:+: text :=
  fun occurs => missing (occurs.subset inside)

section Separated

variable {separator : Char} {part left right : Text}

theorem isPrefix_of_isPrefix_append_cons (apart : separator ∉ part)
    (starts : part <+: left ++ separator :: right) : part <+: left := by
  have front : left ++ [separator] <+: left ++ separator :: right := ⟨right, by simp⟩
  rcases Nat.lt_or_ge left.length part.length with longer | shorter
  · have inside : left ++ [separator] <+: part := by
      apply List.prefix_of_prefix_length_le front starts
      rw [List.length_append]
      exact longer
    exact absurd (inside.subset (by simp)) apart
  · exact List.prefix_of_prefix_length_le starts (List.prefix_append _ _) shorter

/-- A fixed text is not looked for across a character that it does not hold. -/
theorem expect?_append_cons (apart : separator ∉ part) (left right : Text) :
    expect? part (left ++ separator :: right) =
      (expect? part left).map (· ++ separator :: right) := by
  cases found : expect? part left with
  | some rest =>
      rw [expect?_eq_some.1 found, List.append_assoc, expect?_append]
      rfl
  | none =>
      apply expect?_eq_none
      intro starts
      obtain ⟨rest, rfl⟩ := isPrefix_of_isPrefix_append_cons apart starts
      rw [expect?_append] at found
      cases found

/-- A part does not reach across a character that it does not hold. -/
theorem not_isInfix_append_cons (apart : separator ∉ part) (noLeft : ¬part <:+: left)
    (noRight : ¬part <:+: right) : ¬part <:+: left ++ separator :: right := by
  induction left with
  | nil =>
      intro occurs
      rcases List.infix_cons_iff.1 occurs with starts | later
      · have inLeft : part <+: [] := isPrefix_of_isPrefix_append_cons apart starts
        exact noLeft inLeft.isInfix
      · exact noRight later
  | cons char left ih =>
      intro occurs
      rcases List.infix_cons_iff.1 occurs with starts | later
      · have inLeft : part <+: char :: left := isPrefix_of_isPrefix_append_cons apart starts
        exact noLeft inLeft.isInfix
      · exact ih (fun inLeft => noLeft (List.infix_cons inLeft)) later

end Separated

/-- No end of a text starts like another text, as far as both go. -/
def Apart (part other : Text) : Prop :=
  ∀ back ∈ part.tails, back ≠ [] → ¬back <+: other ∧ ¬other <+: back

instance (part other : Text) : Decidable (Apart part other) :=
  inferInstanceAs (Decidable (∀ back ∈ part.tails, back ≠ [] → ¬back <+: other ∧ ¬other <+: back))

namespace Apart

variable {part other : Text}

theorem tail {char : Char} (apart : Apart (char :: part) other) : Apart part other := by
  intro back member
  apply apart back
  rw [List.tails_cons]
  exact List.mem_cons_of_mem _ member

theorem not_isPrefix_append (apart : Apart part other) (nonempty : part ≠ []) (rest : Text) :
    ¬part <+: other ++ rest := by
  obtain ⟨notLonger, notShorter⟩ := apart part ((List.mem_tails _ _).2 List.suffix_rfl) nonempty
  intro starts
  rcases List.prefix_or_prefix_of_prefix starts (List.prefix_append other rest) with
    longer | shorter
  · exact notLonger longer
  · exact notShorter shorter

theorem not_append_isPrefix (apart : Apart part other) (nonempty : part ≠ []) (rest : Text) :
    ¬other <+: part ++ rest := by
  obtain ⟨notLonger, notShorter⟩ := apart part ((List.mem_tails _ _).2 List.suffix_rfl) nonempty
  intro starts
  rcases List.prefix_or_prefix_of_prefix starts (List.prefix_append part rest) with
    shorter | longer
  · exact notShorter shorter
  · exact notLonger longer

end Apart

/-! ## Ends of a line -/

/-- The text ends here, or the line does. -/
def ClosesLine (rest : Text) : Prop :=
  ∀ char, rest.head? = some char → char = '\n'

theorem closesLine_nil : ClosesLine [] := nofun

theorem closesLine_newline (rest : Text) : ClosesLine ('\n' :: rest) := by
  intro char first
  cases first
  rfl

/-- What starts in a line and holds no newline ends in the line. -/
theorem ClosesLine.isPrefix_of_isPrefix_append {opening text rest : Text}
    (closes : ClosesLine rest) (single : '\n' ∉ opening) (starts : opening <+: text ++ rest) :
    opening <+: text := by
  cases rest with
  | nil => rwa [List.append_nil] at starts
  | cons char rest =>
      rw [closes char rfl] at starts
      exact isPrefix_of_isPrefix_append_cons single starts

/-! ## Openings -/

namespace Recognizer

variable {α : Type} {recognizer : Recognizer α} {openings : List Text}

/-- Every construct starts with one of some fixed texts and leaves an end of what is behind. -/
def OpensWith (recognizer : Recognizer α) (openings : List Text) : Prop :=
  ∀ before text value rest, recognizer.at? before text = some (value, rest) →
    ∃ opening ∈ openings, ∃ behind, text = opening ++ behind ∧ rest <:+ behind

namespace OpensWith

theorem proper (opens : recognizer.OpensWith openings)
    (nonempty : ∀ opening ∈ openings, opening ≠ []) : recognizer.Proper := by
  intro before text value rest found
  obtain ⟨opening, member, behind, rfl, taken, rfl⟩ := opens before text value rest found
  refine ⟨opening ++ taken, ?_, (List.append_assoc opening taken rest).symm⟩
  intro empty
  exact nonempty opening member (List.append_eq_nil_iff.1 empty).1

/-- Nothing is recognised where none of the openings stands. -/
theorem at?_eq_none (opens : recognizer.OpensWith openings) {before : Option Char} {text : Text}
    (missing : ∀ opening ∈ openings, ¬opening <+: text) : recognizer.at? before text = none := by
  cases found : recognizer.at? before text with
  | none => rfl
  | some result =>
      obtain ⟨opening, member, behind, split, _⟩ := opens before text result.1 result.2 found
      exact absurd ⟨behind, split.symm⟩ (missing opening member)

theorem startsVisibly (opens : recognizer.OpensWith openings)
    (solid : ∀ opening ∈ openings, opening.head?.any (fun char => !isBlank char) = true) :
    recognizer.StartsVisibly := by
  intro before char rest blank
  apply opens.at?_eq_none
  intro opening member starts
  have visible := solid opening member
  cases opening with
  | nil => cases visible
  | cons first tail =>
      rw [(List.cons_prefix_cons.1 starts).1] at visible
      simp [blank] at visible

/-- A stretch of a line that holds no opening stays as it is. -/
theorem settles (opens : recognizer.OpensWith openings)
    (single : ∀ opening ∈ openings, '\n' ∉ opening) {text rest : Text}
    (absent : ∀ opening ∈ openings, ¬opening <:+: text) (closes : ClosesLine rest)
    {judge : α → Verdict} {before : Option Char} :
    recognizer.Settles judge rest before text text := by
  induction text generalizing before with
  | nil => exact .nil
  | cons char text ih =>
      apply Settles.gap
      · apply opens.at?_eq_none
        intro opening member starts
        have startsHere : opening <+: char :: text :=
          closes.isPrefix_of_isPrefix_append (single opening member) starts
        exact absent opening member startsHere.isInfix
      · apply ih
        intro opening member occurs
        exact absent opening member (occurs.trans (List.suffix_cons char text).isInfix)

end OpensWith

/-- Every construct starts with one fixed text, and ends with another one behind it. -/
def Encloses (recognizer : Recognizer α) (opening closing : Text) : Prop :=
  ∀ before text value rest, recognizer.at? before text = some (value, rest) →
    ∃ behind, text = opening ++ behind ∧ closing ++ rest <:+ behind

namespace Encloses

variable {opening closing : Text}

theorem opensWith (encloses : recognizer.Encloses opening closing) :
    recognizer.OpensWith [opening] := by
  intro before text value rest found
  obtain ⟨behind, split, closed⟩ := encloses before text value rest found
  exact ⟨opening, List.mem_singleton_self opening, behind, split,
    (List.suffix_append closing rest).trans closed⟩

theorem isInfix (encloses : recognizer.Encloses opening closing) {before : Option Char}
    {text rest : Text} {value : α} (found : recognizer.at? before text = some (value, rest)) :
    closing <:+: text := by
  obtain ⟨behind, rfl, closed⟩ := encloses before text value rest found
  calc closing
    _ <:+: closing ++ rest := (List.prefix_append closing rest).isInfix
    _ <:+: opening ++ behind := (closed.trans (List.suffix_append opening behind)).isInfix

end Encloses

/-! ## One line after the other -/

section Listing

variable {ι : Type} {judge : α → Verdict} {indent source target : ι → Text} {listing : List ι}
  (Behind : Text → Prop)

theorem behind_unlines (atEnd : Behind [])
    (atLine : ∀ item ∈ listing, ∀ rest, Behind rest →
      Behind ('\n' :: (indent item ++ source item ++ rest)))
    (nonempty : listing ≠ []) :
    Behind ('\n' :: unlines (listing.map fun item => indent item ++ source item)) := by
  induction listing with
  | nil => exact absurd rfl nonempty
  | cons item others ih =>
      have here := atLine item List.mem_cons_self
      cases others with
      | nil =>
          have last := here [] atEnd
          rwa [List.append_nil] at last
      | cons next rest =>
          have tail := ih (fun other member => atLine other (List.mem_cons_of_mem item member))
            (List.cons_ne_nil next rest)
          rw [List.map_cons, List.map_cons, unlines_cons_cons]
          exact here _ tail

/-- A pass that settles the items of a listing settles the listing. What stands behind an item is
the next line or nothing, and may be relied upon in so far as it satisfies `Behind`. -/
theorem settles_unlines (visible : recognizer.StartsVisibly)
    (blank : ∀ item ∈ listing, AllBlank (indent item)) (atEnd : Behind [])
    (atLine : ∀ item ∈ listing, ∀ rest, Behind rest →
      Behind ('\n' :: (indent item ++ source item ++ rest)))
    (each : ∀ item ∈ listing, ∀ before rest, opensWord before = true → Behind rest →
      recognizer.Settles judge rest before (source item) (target item))
    {before : Option Char} (opens : opensWord before = true) :
    recognizer.Settles judge [] before
      (unlines (listing.map fun item => indent item ++ source item))
      (unlines (listing.map fun item => indent item ++ target item)) := by
  induction listing generalizing before with
  | nil => exact .nil
  | cons item others ih =>
      have line : ∀ rest, Behind rest → recognizer.Settles judge rest before
          (indent item ++ source item) (indent item ++ target item) := by
        intro rest behind
        have indentBlank := blank item List.mem_cons_self
        apply Settles.append
        · exact .of_blank visible indentBlank _
        · exact each item List.mem_cons_self _ rest (opensWord_passed_of_blank indentBlank opens)
            behind
      cases others with
      | nil => exact line [] atEnd
      | cons next rest =>
          have behind := behind_unlines Behind atEnd
            (fun other member => atLine other (List.mem_cons_of_mem item member))
            (List.cons_ne_nil next rest)
          -- The rest is settled behind the newline, where words can start.
          have newLine : opensWord (some '\n') = true := rfl
          have tail := ih (fun other member => blank other (List.mem_cons_of_mem item member))
            (fun other member => atLine other (List.mem_cons_of_mem item member))
            (fun other member => each other (List.mem_cons_of_mem item member)) newLine
          rw [List.map_cons, List.map_cons, unlines_cons_cons, List.map_cons, List.map_cons,
            unlines_cons_cons]
          apply Settles.append
          · rw [List.append_nil]
            exact line _ behind
          · exact .gap (visible _ '\n' _ rfl) tail

end Listing

end Recognizer

end Offside
