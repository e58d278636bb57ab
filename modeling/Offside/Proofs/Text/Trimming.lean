import Offside.Text.Blank

/-!
# Trimmed texts

A text is the same as its trimmed part with blanks on both sides, and the trimmed part is
determined by that. Passes that trim their lines can therefore be read on the trimmed part
alone, whatever blanks a line carries.
-/

namespace Offside

/-- What holds of all characters of a text is decided by going through the text, not through all
characters that there are. -/
instance decidableForallMem {property : Char → Prop} [DecidablePred property] (text : Text) :
    Decidable (∀ char ∈ text, property char) :=
  List.decidableBAll property text

/-- Nothing but blanks. -/
def AllBlank (text : Text) : Prop :=
  ∀ char ∈ text, isBlank char = true

instance (text : Text) : Decidable (AllBlank text) :=
  inferInstanceAs (Decidable (∀ char ∈ text, isBlank char = true))

/-- The first character, if there is one, is no blank. -/
def StartsSolid (text : Text) : Prop :=
  ∀ char, text.head? = some char → isBlank char = false

/-- The last character, if there is one, is no blank. -/
def EndsSolid (text : Text) : Prop :=
  ∀ char, text.getLast? = some char → isBlank char = false

theorem allBlank_nil : AllBlank [] := by
  intro char member
  cases member

theorem allBlank_append {left right : Text} (leftBlank : AllBlank left)
    (rightBlank : AllBlank right) : AllBlank (left ++ right) := by
  intro char member
  rcases List.mem_append.1 member with member | member
  · exact leftBlank char member
  · exact rightBlank char member

theorem allBlank_replicate_space (count : Nat) : AllBlank (List.replicate count ' ') := by
  intro char member
  rw [List.eq_of_mem_replicate member]
  decide

theorem startsSolid_nil : StartsSolid [] := by
  intro char first
  cases first

theorem startsSolid_cons {char : Char} {rest : Text} (solid : isBlank char = false) :
    StartsSolid (char :: rest) := by
  intro first isFirst
  cases isFirst
  exact solid

theorem startsSolid_of_head? {text : Text} {char : Char} (first : text.head? = some char)
    (solid : isBlank char = false) : StartsSolid text := by
  intro other isFirst
  rw [first, Option.some.injEq] at isFirst
  rw [← isFirst]
  exact solid

theorem StartsSolid.append {left right : Text} (solid : StartsSolid left)
    (nonempty : left ≠ []) : StartsSolid (left ++ right) := by
  cases left with
  | nil => exact absurd rfl nonempty
  | cons char rest => exact startsSolid_cons (solid char rfl)

theorem endsSolid_nil : EndsSolid [] := by
  intro char last
  cases last

theorem endsSolid_of_getLast? {text : Text} {char : Char} (last : text.getLast? = some char)
    (solid : isBlank char = false) : EndsSolid text := by
  intro other isLast
  rw [last, Option.some.injEq] at isLast
  rw [← isLast]
  exact solid

theorem EndsSolid.append {left right : Text} (solid : EndsSolid right)
    (nonempty : right ≠ []) : EndsSolid (left ++ right) := by
  intro char last
  apply solid char
  rw [← last, List.getLast?_append]
  cases ending : right.getLast? with
  | none => exact absurd (List.getLast?_eq_none_iff.1 ending) nonempty
  | some char => rfl

theorem EndsSolid.of_append {left right : Text} (solid : EndsSolid (left ++ right)) :
    EndsSolid right := by
  intro char last
  apply solid char
  rw [List.getLast?_append, last]
  rfl

theorem endsSolid_concat {char : Char} {start : Text} (solid : isBlank char = false) :
    EndsSolid (start ++ [char]) := by
  refine EndsSolid.append ?_ (by simp)
  intro last isLast
  cases isLast
  exact solid

/-! ## Skipping blanks -/

theorem skipBlanks_append {blanks : Text} (blank : AllBlank blanks) (text : Text) :
    skipBlanks (blanks ++ text) = skipBlanks text :=
  List.dropWhile_append_of_pos blank

theorem skipBlanks_eq_nil {blanks : Text} (blank : AllBlank blanks) :
    skipBlanks blanks = [] := by
  rw [← List.append_nil blanks, skipBlanks_append blank]
  rfl

theorem StartsSolid.skipBlanks_eq {text : Text} (solid : StartsSolid text) :
    skipBlanks text = text := by
  cases text with
  | nil => rfl
  | cons char rest => simp [skipBlanks, solid char rfl]

theorem skipBlanks_cons_of_solid {char : Char} (solid : isBlank char = false) (rest : Text) :
    skipBlanks (char :: rest) = char :: rest :=
  (startsSolid_cons solid).skipBlanks_eq

theorem startsSolid_skipBlanks (text : Text) : StartsSolid (skipBlanks text) := by
  induction text with
  | nil => exact startsSolid_nil
  | cons char rest ih =>
      cases blank : isBlank char with
      | true => simpa [skipBlanks, blank] using ih
      | false =>
          rw [skipBlanks_cons_of_solid blank]
          exact startsSolid_cons blank

/-- A text is the blanks in front of it and what is left behind them. -/
theorem exists_append_skipBlanks (text : Text) :
    ∃ blanks, AllBlank blanks ∧ text = blanks ++ skipBlanks text := by
  refine ⟨text.takeWhile isBlank, ?_, (List.takeWhile_append_dropWhile).symm⟩
  exact List.all_eq_true.1 List.all_takeWhile

theorem StartsSolid.skipBlanks_append {back : Text} (solid : StartsSolid back) (front : Text) :
    skipBlanks (front ++ back) = skipBlanks front ++ back := by
  obtain ⟨blanks, blank, split⟩ := exists_append_skipBlanks front
  have starts : StartsSolid (skipBlanks front ++ back) := by
    cases skipped : skipBlanks front with
    | nil => exact solid
    | cons char rest =>
        rw [← skipped]
        exact (startsSolid_skipBlanks front).append (by simp [skipped])
  calc skipBlanks (front ++ back)
    _ = skipBlanks (blanks ++ (skipBlanks front ++ back)) := by rw [← List.append_assoc, ← split]
    _ = skipBlanks front ++ back := by rw [Offside.skipBlanks_append blank, starts.skipBlanks_eq]

/-! ## Trimming -/

theorem trimEnd_append {blanks : Text} (blank : AllBlank blanks) (text : Text) :
    trimEnd (text ++ blanks) = trimEnd text := by
  have reversed : ∀ char ∈ blanks.reverse, isBlank char = true := by
    intro char member
    exact blank char (List.mem_reverse.1 member)
  simp only [trimEnd, List.reverse_append, List.dropWhile_append_of_pos reversed]

theorem EndsSolid.trimEnd_eq {text : Text} (solid : EndsSolid text) : trimEnd text = text := by
  have reversed : StartsSolid text.reverse := by
    intro char first
    exact solid char (by simpa using first)
  have unchanged := reversed.skipBlanks_eq
  simp only [skipBlanks] at unchanged
  simp only [trimEnd, unchanged, List.reverse_reverse]

theorem AllBlank.eq_nil_of_startsSolid {blanks text : Text} (blank : AllBlank blanks)
    (solid : StartsSolid (blanks ++ text)) : blanks = [] := by
  cases blanks with
  | nil => rfl
  | cons char blanks =>
      have isSolid := solid char rfl
      rw [blank char List.mem_cons_self] at isSolid
      cases isSolid

theorem AllBlank.eq_nil_of_endsSolid {blanks : Text} (blank : AllBlank blanks)
    (solid : EndsSolid blanks) : blanks = [] := by
  have trimmed := trimEnd_append blank []
  rwa [List.nil_append, solid.trimEnd_eq] at trimmed

/-- A text that ends in a visible character does not consist of blanks alone. -/
theorem EndsSolid.skipBlanks_ne_nil {text : Text} (solid : EndsSolid text)
    (nonempty : text ≠ []) : skipBlanks text ≠ [] := by
  intro skipped
  obtain ⟨blanks, blank, split⟩ := exists_append_skipBlanks text
  rw [skipped, List.append_nil] at split
  rw [split] at solid nonempty
  exact nonempty (blank.eq_nil_of_endsSolid solid)

theorem endsSolid_trimEnd (text : Text) : EndsSolid (trimEnd text) := by
  intro char last
  apply startsSolid_skipBlanks text.reverse
  simpa [trimEnd, skipBlanks] using last

/-- A text is what is left in front of the blanks at its end, and these blanks. -/
theorem exists_trimEnd_append (text : Text) :
    ∃ blanks, AllBlank blanks ∧ text = trimEnd text ++ blanks := by
  obtain ⟨blanks, blank, split⟩ := exists_append_skipBlanks text.reverse
  refine ⟨blanks.reverse, fun char member => blank char (List.mem_reverse.1 member), ?_⟩
  have reversed := congrArg List.reverse split
  simpa [trimEnd, skipBlanks] using reversed

theorem notMem_trimEnd {text : Text} {char : Char} (free : char ∉ text) : char ∉ trimEnd text := by
  obtain ⟨blanks, _, split⟩ := exists_trimEnd_append text
  rw [split, List.mem_append, not_or] at free
  exact free.1

theorem EndsSolid.trimEnd_append {front : Text} (solid : EndsSolid front) (back : Text) :
    trimEnd (front ++ back) = front ++ trimEnd back := by
  obtain ⟨blanks, blank, split⟩ := exists_trimEnd_append back
  have ends : EndsSolid (front ++ trimEnd back) := by
    cases trimmed : trimEnd back with
    | nil => rwa [List.append_nil]
    | cons char rest =>
        rw [← trimmed]
        exact (endsSolid_trimEnd back).append (by simp [trimmed])
  calc trimEnd (front ++ back)
    _ = trimEnd (front ++ trimEnd back ++ blanks) := by rw [List.append_assoc, ← split]
    _ = front ++ trimEnd back := by rw [Offside.trimEnd_append blank, ends.trimEnd_eq]

/-- Blanks around a trimmed part do not matter. -/
theorem trim_surrounded {front core back : Text} (frontBlank : AllBlank front)
    (backBlank : AllBlank back) (starts : StartsSolid core) (ends : EndsSolid core) :
    trim (front ++ core ++ back) = core := by
  rw [List.append_assoc, trim, skipBlanks_append frontBlank]
  cases core with
  | nil => rw [List.nil_append, skipBlanks_eq_nil backBlank]; rfl
  | cons char rest =>
      rw [(starts.append (by simp)).skipBlanks_eq, trimEnd_append backBlank, ends.trimEnd_eq]

theorem trim_append_left {blanks : Text} (blank : AllBlank blanks) (text : Text) :
    trim (blanks ++ text) = trim text := by
  rw [trim, skipBlanks_append blank, trim]

theorem trim_eq_self {text : Text} (starts : StartsSolid text) (ends : EndsSolid text) :
    trim text = text := by
  rw [trim, starts.skipBlanks_eq, ends.trimEnd_eq]

theorem endsSolid_trim (text : Text) : EndsSolid (trim text) :=
  endsSolid_trimEnd (skipBlanks text)

theorem startsSolid_trim (text : Text) : StartsSolid (trim text) := by
  intro char first
  obtain ⟨blanks, _, split⟩ := exists_trimEnd_append (skipBlanks text)
  apply startsSolid_skipBlanks text
  rw [trim] at first
  rw [split, List.head?_append, first]
  rfl

/-- Trimming is finished exactly when there is no blank at either end. -/
theorem trim_eq_self_iff {text : Text} :
    trim text = text ↔ StartsSolid text ∧ EndsSolid text := by
  constructor
  · intro trimmed
    rw [← trimmed]
    exact ⟨startsSolid_trim text, endsSolid_trim text⟩
  · intro ⟨starts, ends⟩
    exact trim_eq_self starts ends

theorem trim_trim (text : Text) : trim (trim text) = trim text :=
  trim_eq_self (startsSolid_trim text) (endsSolid_trim text)

/-- A text is its trimmed part with blanks on both sides. -/
theorem exists_surrounded_trim (text : Text) :
    ∃ front back, AllBlank front ∧ AllBlank back ∧ text = front ++ trim text ++ back := by
  obtain ⟨front, frontBlank, splitFront⟩ := exists_append_skipBlanks text
  obtain ⟨back, backBlank, splitBack⟩ := exists_trimEnd_append (skipBlanks text)
  refine ⟨front, back, frontBlank, backBlank, ?_⟩
  rw [List.append_assoc, trim, ← splitBack, ← splitFront]

theorem mem_of_mem_trim {text : Text} {char : Char} (member : char ∈ trim text) :
    char ∈ text := by
  obtain ⟨front, back, _, _, split⟩ := exists_surrounded_trim text
  rw [split]
  simp [member]

theorem trim_eq_nil_iff {text : Text} : trim text = [] ↔ AllBlank text := by
  constructor
  · intro empty
    obtain ⟨front, back, frontBlank, backBlank, split⟩ := exists_surrounded_trim text
    rw [split, empty, List.append_nil]
    exact allBlank_append frontBlank backBlank
  · intro blank
    rw [trim, skipBlanks_eq_nil blank]
    rfl

theorem trim_append_right {blanks : Text} (blank : AllBlank blanks) (text : Text) :
    trim (text ++ blanks) = trim text := by
  obtain ⟨front, back, frontBlank, backBlank, split⟩ := exists_surrounded_trim text
  have surrounded := trim_surrounded frontBlank (allBlank_append backBlank blank)
    (startsSolid_trim text) (endsSolid_trim text)
  rwa [← List.append_assoc, ← split] at surrounded

theorem trim_sublist (text : Text) : (trim text).Sublist text := by
  obtain ⟨front, back, _, _, split⟩ := exists_surrounded_trim text
  have inside := (List.sublist_append_right front (trim text)).trans
    (List.sublist_append_left (front ++ trim text) back)
  rwa [← split] at inside

end Offside
