import Offside.Proofs.Editing.Division
import Offside.Proofs.Text.Spans

/-!
# Splicing outcomes between gaps

What is written for a division, whatever its hits are and whatever is decided about them: the gaps
stay, the outcomes stand between them, and the remarks follow those that were there before. The two
patterns of digits give the hits of such a division in full: the runs of digits that cannot be made
longer, and for the pattern that may be empty also the places without a digit on either side.
-/

namespace Offside

/-! ## Stretches of digits -/

/-- If there is a character, it is no digit. -/
def NoDigit (char? : Option Char) : Prop :=
  ∀ char, char? = some char → char.isDigit = false

/-- Nothing but digits, and no digit on either side, with `before` in front of the whole text. The
stretch may be empty. -/
structure Occurrence.IsDigitStretch (occurrence : Occurrence Unit) (before : Option Char) :
    Prop where
  digits : ∀ char ∈ occurrence.matched, char.isDigit = true
  opens : NoDigit (passed before occurrence.front)
  closes : NoDigit occurrence.back.head?

theorem Occurrence.isDigitStretch_behind {occurrence : Occurrence Unit} {before : Option Char}
    (text : Text) : (occurrence.behind text).IsDigitStretch before ↔
      occurrence.IsDigitStretch (passed before text) := by
  have front : passed before (occurrence.behind text).front =
      passed (passed before text) occurrence.front := passed_append before text occurrence.front
  constructor
  · rintro ⟨digits, opens, closes⟩
    exact ⟨digits, front ▸ opens, closes⟩
  · rintro ⟨digits, opens, closes⟩
    exact ⟨digits, front ▸ opens, closes⟩

/-- The stretches of digits in a text, from left to right. -/
structure ListsDigits (before : Option Char) (text : Text) (found : List (Occurrence Unit)) :
    Prop where
  mem_iff : ∀ occurrence, occurrence ∈ found ↔
    occurrence.whole = text ∧ occurrence.IsDigitStretch before
  ordered : found.Pairwise fun one other => one.start < other.start

namespace ListsDigits

variable {before : Option Char} {front rest : Text} {found : List (Occurrence Unit)}

/-- Only one stretch can start in the front of a text, and all others are those of the rest. -/
theorem append (nonempty : front ≠ []) (first? : Option (Occurrence Unit))
    (first : ∀ occurrence, first? = some occurrence ↔ occurrence.whole = front ++ rest ∧
      occurrence.IsDigitStretch before ∧ ¬front <+: occurrence.front)
    (atStart : ∀ occurrence, first? = some occurrence → occurrence.front = [])
    (lists : ListsDigits (passed before front) rest found) :
    ListsDigits before (front ++ rest) (first?.toList ++ found.map (.behind front)) where
  mem_iff := by
    intro occurrence
    rw [List.mem_append, Option.mem_toList, first, List.mem_map]
    constructor
    · rintro (⟨whole, stretch, _⟩ | ⟨other, member, rfl⟩)
      · exact ⟨whole, stretch⟩
      · obtain ⟨whole, stretch⟩ := (lists.mem_iff other).1 member
        exact ⟨by rw [Occurrence.whole_behind, whole],
          (Occurrence.isDigitStretch_behind front).2 stretch⟩
    · rintro ⟨whole, stretch⟩
      by_cases later : front <+: occurrence.front
      · obtain ⟨more, split⟩ := later
        obtain ⟨_, matched, value, back⟩ := occurrence
        cases split
        refine .inr ⟨⟨more, matched, value, back⟩, (lists.mem_iff _).2 ⟨?_, ?_⟩, rfl⟩
        · exact List.append_cancel_left ((List.append_assoc front more _).symm.trans whole)
        · exact (Occurrence.isDigitStretch_behind front).1 stretch
      · exact .inl ⟨whole, stretch, later⟩
  ordered := by
    have taken := byteLength_pos nonempty
    rw [List.pairwise_append, List.pairwise_map]
    refine ⟨?_, ?_, ?_⟩
    · cases first? <;> simp
    · refine lists.ordered.imp fun ordered => ?_
      simp only [Occurrence.start_behind]
      omega
    · intro occurrence member other later
      obtain ⟨inner, _, rfl⟩ := List.mem_map.1 later
      rw [Occurrence.start_behind, Occurrence.start,
        atStart occurrence (Option.mem_toList.1 member)]
      simp only [byteLength_nil]
      omega

/-- What starts in the front of a text without being behind it starts inside it. -/
theorem exists_inside {occurrence : Occurrence Unit} (whole : occurrence.whole = front ++ rest)
    (earlier : ¬front <+: occurrence.front) :
    ∃ more, more ≠ [] ∧ front = occurrence.front ++ more := by
  rcases List.append_eq_append_iff.1 whole with ⟨more, inside, _⟩ | ⟨more, behind, _⟩
  · refine ⟨more, ?_, inside⟩
    rintro rfl
    exact earlier ⟨[], by rw [inside, List.append_nil, List.append_nil]⟩
  · exact absurd ⟨more, behind.symm⟩ earlier

theorem nil (opens : NoDigit before) : ListsDigits before [] [⟨[], [], (), []⟩] where
  mem_iff := by
    intro occurrence
    rw [List.mem_singleton]
    constructor
    · rintro rfl
      exact ⟨rfl, by simp, opens, by simp [NoDigit]⟩
    · rintro ⟨whole, _⟩
      obtain ⟨front, matched, _, back⟩ := occurrence
      simp only [Occurrence.whole, List.append_eq_nil_iff] at whole
      obtain ⟨rfl, rfl, rfl⟩ := whole
      rfl
  ordered := List.pairwise_singleton _ _

theorem nil_behind {digit : Char} (isDigit : digit.isDigit = true) :
    ListsDigits (some digit) [] [] where
  mem_iff := by
    intro occurrence
    simp only [List.not_mem_nil, false_iff, not_and]
    intro whole stretch
    have atStart : occurrence.front = [] := (List.append_eq_nil_iff.1 whole).1
    have noDigit := stretch.opens digit (by rw [atStart]; rfl)
    rw [isDigit] at noDigit
    cases noDigit
  ordered := .nil

/-- In front of a character that is no digit there is an empty stretch, unless a digit has just been
passed. -/
theorem starts_cons_iff {char : Char} (noDigit : char.isDigit = false)
    {occurrence : Occurrence Unit} :
    occurrence.whole = [char] ++ rest ∧ occurrence.IsDigitStretch before ∧
        ¬[char] <+: occurrence.front ↔
      occurrence = ⟨[], [], (), char :: rest⟩ ∧ NoDigit before := by
  constructor
  · rintro ⟨whole, stretch, earlier⟩
    obtain ⟨more, ahead, split⟩ := exists_inside whole earlier
    obtain ⟨front, matched, _, back⟩ := occurrence
    have atStart : front = [] := by
      rcases List.append_eq_singleton_iff.1 split.symm with ⟨empty, _⟩ | ⟨_, none⟩
      · exact empty
      · exact absurd none ahead
    subst atStart
    cases matched with
    | nil =>
        cases whole
        exact ⟨rfl, stretch.opens⟩
    | cons first matched =>
        have digit := stretch.digits first List.mem_cons_self
        obtain ⟨rfl, _⟩ := List.cons.inj whole
        rw [noDigit] at digit
        cases digit
  · rintro ⟨rfl, opens⟩
    exact ⟨rfl, ⟨by simp, opens, by simpa [NoDigit] using noDigit⟩, by simp⟩

theorem cons_free {char : Char} (noDigit : char.isDigit = false) (opens : NoDigit before)
    (lists : ListsDigits (some char) rest found) :
    ListsDigits before (char :: rest)
      (⟨[], [], (), char :: rest⟩ :: found.map (.behind [char])) := by
  refine append (List.cons_ne_nil char []) (some ⟨[], [], (), char :: rest⟩) ?_ ?_ lists
  · intro occurrence
    rw [starts_cons_iff noDigit, Option.some.injEq, eq_comm, and_iff_left opens]
  · intro occurrence same
    cases same
    rfl

theorem cons_behind {char digit : Char} (noDigit : char.isDigit = false)
    (isDigit : digit.isDigit = true) (lists : ListsDigits (some char) rest found) :
    ListsDigits (some digit) (char :: rest) (found.map (.behind [char])) := by
  refine append (List.cons_ne_nil char []) none ?_ (by simp) lists
  intro occurrence
  rw [starts_cons_iff noDigit]
  simp [NoDigit, isDigit]

/-- A run of digits is taken as a whole. -/
theorem run {run : Text} (nonempty : run ≠ []) (digits : ∀ char ∈ run, char.isDigit = true)
    (opens : NoDigit before) (closes : NoDigit rest.head?)
    (lists : ListsDigits (passed before run) rest found) :
    ListsDigits before (run ++ rest) (⟨[], run, (), rest⟩ :: found.map (.behind run)) := by
  refine append nonempty (some ⟨[], run, (), rest⟩) ?_ ?_ lists
  · intro occurrence
    rw [Option.some.injEq]
    constructor
    · rintro rfl
      exact ⟨rfl, ⟨digits, opens, closes⟩, by simpa using nonempty⟩
    · rintro ⟨whole, stretch, earlier⟩
      obtain ⟨more, ahead, split⟩ := exists_inside whole earlier
      obtain ⟨front, matched, _, back⟩ := occurrence
      -- A digit of the run would be in front of the stretch if it started later.
      have atStart : front = [] := by
        rcases List.eq_nil_or_concat front with empty | ⟨others, last, rfl⟩
        · exact empty
        · have digit := digits last (by rw [split]; simp)
          have noDigit := stretch.opens last (by simp [passed_eq])
          rw [digit] at noDigit
          cases noDigit
      subst atStart
      have whole : matched ++ back = run ++ rest := whole
      have same : matched = run := by
        have taken : (matched ++ back).takeWhile Char.isDigit = matched :=
          takeWhile_append_of_stop stretch.digits stretch.closes
        rw [← taken, whole, takeWhile_append_of_stop digits closes]
      subst same
      rw [List.append_cancel_left whole]
  · intro occurrence same
    cases same
    rfl

end ListsDigits

/-! ## The patterns of digits -/

namespace Recognizer

theorem piecesFrom_digitsOrNothing_cons {char : Char} (noDigit : char.isDigit = false)
    (before : Option Char) (rest : Text) :
    digitsOrNothing.piecesFrom .free before (char :: rest) =
        .hit [] () :: .gap char :: digitsOrNothing.piecesFrom .free (some char) rest ∧
      digitsOrNothing.piecesFrom (.within 0) before (char :: rest) =
        .gap char :: digitsOrNothing.piecesFrom .free (some char) rest := by
  simp [piecesFrom, digitsOrNothing, noDigit]

theorem piecesFrom_digitsOrNothing_append {run rest : Text} (nonempty : run ≠ [])
    (digits : ∀ char ∈ run, char.isDigit = true) (closes : NoDigit rest.head?)
    (before : Option Char) :
    digitsOrNothing.piecesFrom .free before (run ++ rest) =
      .hit run () :: digitsOrNothing.piecesFrom (.within 0) (passed before run) rest := by
  have found : digitsOrNothing.at? before (run ++ rest) = some ((), rest) := by
    simp only [digitsOrNothing, dropWhile_append_of_stop digits closes]
  cases run with
  | nil => exact absurd rfl nonempty
  | cons char run =>
      have count : (char :: (run ++ rest)).length - rest.length = run.length + 1 := by
        simp only [List.length_cons, List.length_append]
        omega
      rw [List.cons_append] at found ⊢
      simp only [piecesFrom, found, count]
      rw [piecesFrom_within_append]
      simp

/-- The hits among the pieces from a position on. -/
def occurrencesFrom {α : Type} (recognizer : Recognizer α) (stance : Stance)
    (before : Option Char) (text : Text) : List (Occurrence α) :=
  (Division.ofPieces (recognizer.piecesFrom stance before text)).occurrences

theorem occurrencesFrom_digitsOrNothing_cons {char : Char} (noDigit : char.isDigit = false)
    (before : Option Char) (rest : Text) :
    digitsOrNothing.occurrencesFrom .free before (char :: rest) =
        ⟨[], [], (), char :: rest⟩ ::
          (digitsOrNothing.occurrencesFrom .free (some char) rest).map (.behind [char]) ∧
      digitsOrNothing.occurrencesFrom (.within 0) before (char :: rest) =
        (digitsOrNothing.occurrencesFrom .free (some char) rest).map (.behind [char]) := by
  obtain ⟨free, within⟩ := piecesFrom_digitsOrNothing_cons noDigit before rest
  constructor
  · rw [occurrencesFrom, free, Division.occurrences_ofPieces_hit,
      Division.occurrences_ofPieces_gap, List.flatMap_cons, flatMap_source_piecesFrom]
    simp [Occurrence.behind, Function.comp_def, occurrencesFrom, Piece.source]
  · rw [occurrencesFrom, within, Division.occurrences_ofPieces_gap]
    rfl

theorem occurrencesFrom_digitsOrNothing_append {run rest : Text} (nonempty : run ≠ [])
    (digits : ∀ char ∈ run, char.isDigit = true) (closes : NoDigit rest.head?)
    (before : Option Char) :
    digitsOrNothing.occurrencesFrom .free before (run ++ rest) =
      ⟨[], run, (), rest⟩ ::
        (digitsOrNothing.occurrencesFrom (.within 0) (passed before run) rest).map
          (.behind run) := by
  rw [occurrencesFrom, piecesFrom_digitsOrNothing_append nonempty digits closes,
    Division.occurrences_ofPieces_hit, flatMap_source_piecesFrom]
  rfl

/-- The pattern that may be empty finds every stretch of digits. -/
theorem listsDigits_occurrencesFrom (text : Text) {before : Option Char} (opens : NoDigit before) :
    ListsDigits before text (digitsOrNothing.occurrencesFrom .free before text) := by
  match text with
  | [] => exact .nil opens
  | char :: rest =>
      cases digit : char.isDigit with
      | false =>
          rw [(occurrencesFrom_digitsOrNothing_cons digit before rest).1]
          exact .cons_free digit opens
            (listsDigits_occurrencesFrom rest (by simpa [NoDigit] using digit))
      | true =>
          -- The text starts with a run of digits, and behind it there is none.
          obtain ⟨run, behind, split, nonempty, digits, closes⟩ : ∃ run behind,
              char :: rest = run ++ behind ∧ run ≠ [] ∧ (∀ other ∈ run, other.isDigit = true) ∧
                NoDigit behind.head? := by
            refine ⟨(char :: rest).takeWhile Char.isDigit, (char :: rest).dropWhile Char.isDigit,
              List.takeWhile_append_dropWhile.symm, by simp [digit], ?_, ?_⟩
            · exact List.all_eq_true.1 List.all_takeWhile
            · exact fun _ first => head?_dropWhile first
          obtain ⟨last, isLast⟩ : ∃ last, run.getLast? = some last :=
            Option.isSome_iff_exists.1 (by simpa using nonempty)
          have passedRun : passed before run = some last := by rw [passed_eq, isLast]; rfl
          have lastDigit := digits last (List.mem_of_getLast? isLast)
          rw [split, occurrencesFrom_digitsOrNothing_append nonempty digits closes]
          refine .run nonempty digits opens closes ?_
          rw [passedRun]
          cases behind with
          | nil => exact .nil_behind lastDigit
          | cons next others =>
              have noDigit := closes next rfl
              have shorter : others.length < (char :: rest).length := by
                rw [split, List.length_append, List.length_cons]
                omega
              rw [(occurrencesFrom_digitsOrNothing_cons noDigit (some last) others).2]
              exact .cons_behind noDigit lastDigit
                (listsDigits_occurrencesFrom others (by simpa [NoDigit] using noDigit))
termination_by text.length
decreasing_by
  · exact Nat.lt_succ_self rest.length
  · exact shorter

end Recognizer

/-- Whether a piece holds a character. -/
def Piece.isFilled {α : Type} : Piece α → Bool
  | .gap _ => true
  | .hit matched _ => matched ≠ []

@[simp] theorem Piece.isFilled_gap {α : Type} (char : Char) :
    (gap char : Piece α).isFilled = true := rfl

@[simp] theorem Piece.isFilled_hit {α : Type} (matched : Text) (value : α) :
    (hit matched value).isFilled = decide (matched ≠ []) := rfl

theorem Piece.flatMap_source_filter_isFilled {α : Type} (pieces : List (Piece α)) :
    (pieces.filter isFilled).flatMap source = pieces.flatMap source := by
  induction pieces with
  | nil => rfl
  | cons piece pieces ih =>
      cases filled : piece.isFilled with
      | true => rw [List.filter_cons_of_pos filled, List.flatMap_cons, List.flatMap_cons, ih]
      | false =>
          have empty : piece.source = [] := by
            cases piece with
            | gap char => cases filled
            | hit matched value => simpa [source] using filled
          rw [List.filter_cons_of_neg (by simp [filled]), List.flatMap_cons, ih, empty,
            List.nil_append]

/-- Without the empty hits the other hits stand where they stood. -/
theorem Division.occurrences_filter_isFilled {α : Type} (pieces : List (Piece α)) :
    (ofPieces (pieces.filter Piece.isFilled)).occurrences =
      (ofPieces pieces).occurrences.filter fun occurrence => occurrence.matched ≠ [] := by
  induction pieces with
  | nil => rfl
  | cons piece pieces ih =>
      cases piece with
      | gap char =>
          rw [List.filter_cons_of_pos rfl, occurrences_ofPieces_gap, occurrences_ofPieces_gap, ih,
            List.filter_map]
          rfl
      | hit matched value =>
          rw [occurrences_ofPieces_hit]
          cases matched with
          | nil =>
              have stays : (Occurrence.behind [] : Occurrence α → Occurrence α) = id := rfl
              rw [List.filter_cons_of_neg (by simp), ih, List.filter_cons_of_neg (by simp), stays,
                List.map_id]
          | cons char matched =>
              rw [List.filter_cons_of_pos (by simp), occurrences_ofPieces_hit, ih,
                List.filter_cons_of_pos (by simp), Piece.flatMap_source_filter_isFilled,
                List.filter_map]
              rfl

namespace Recognizer

theorem digits_at?_cons (before : Option Char) (char : Char) (rest : Text) :
    digits.at? before (char :: rest) =
      if char.isDigit then some ((), rest.dropWhile Char.isDigit) else none := by
  cases digit : char.isDigit <;> simp [digits, skipSome?, digit]

theorem digitsOrNothing_at?_cons (before : Option Char) (char : Char) (rest : Text) :
    digitsOrNothing.at? before (char :: rest) =
      some ((), if char.isDigit then rest.dropWhile Char.isDigit else char :: rest) := by
  cases digit : char.isDigit <;> simp [digitsOrNothing, digit]

/-- The pattern of one or more digits has the hits of the other pattern that are not empty. -/
theorem piecesFrom_digits (stance : Stance) (before : Option Char) (text : Text) :
    digits.piecesFrom stance before text =
      (digitsOrNothing.piecesFrom stance before text).filter Piece.isFilled := by
  induction text generalizing stance before with
  | nil =>
      have nothing : digits.at? before [] = none := rfl
      have empty : digitsOrNothing.at? before [] = some ((), []) := rfl
      cases stance <;> simp [piecesFrom, nothing, empty]
  | cons char rest ih =>
      have parts : (rest.takeWhile Char.isDigit).length + (rest.dropWhile Char.isDigit).length =
          rest.length := by
        rw [← List.length_append, List.takeWhile_append_dropWhile]
      have count : rest.length + 1 - (rest.dropWhile Char.isDigit).length =
          (rest.takeWhile Char.isDigit).length + 1 := by
        omega
      -- Inside a run both go on; elsewhere they differ in the empty hit only.
      rcases stance with _ | (_ | ahead)
      case within.succ => exact ih (.within ahead) (some char)
      all_goals
        cases digit : char.isDigit <;>
          simp [piecesFrom, digits_at?_cons, digitsOrNothing_at?_cons, digit, count, ih,
            List.filter_cons]

theorem listsDigits_occurrences (text : Text) :
    ListsDigits none text (digitsOrNothing.occurrences text) :=
  listsDigits_occurrencesFrom text (by simp [NoDigit])

theorem occurrences_digits (text : Text) :
    digits.occurrences text =
      (digitsOrNothing.occurrences text).filter fun occurrence => occurrence.matched ≠ [] := by
  rw [occurrences, division, pieces, piecesFrom_digits, Division.occurrences_filter_isFilled]
  rfl

end Recognizer

/-! ## Sequences of hits -/

/-- A start of a text that is no longer than another one is a start of that one. -/
theorem isPrefix_of_byteLength_le {front rest other behind : Text}
    (same : front ++ rest = other ++ behind) (short : byteLength front ≤ byteLength other) :
    front <+: other := by
  rcases List.append_eq_append_iff.1 same with ⟨more, split, _⟩ | ⟨more, split, _⟩
  · exact ⟨more, split.symm⟩
  · cases more with
    | nil => exact ⟨[], by simp [split]⟩
    | cons char more =>
        have longer := byteLength_pos (List.cons_ne_nil char more)
        rw [split, byteLength_append] at short
        omega

/-- Hits that start behind the front of a text are hits in the rest of it. -/
theorem Occurrence.exists_map_behind {α : Type} {front rest : Text} {found : List (Occurrence α)}
    (placed : ∀ occurrence ∈ found, occurrence.whole = front ++ rest)
    (later : ∀ occurrence ∈ found, byteLength front ≤ occurrence.start) :
    ∃ inner : List (Occurrence α), found = inner.map (.behind front) ∧
      ∀ occurrence ∈ inner, occurrence.whole = rest := by
  induction found with
  | nil => exact ⟨[], rfl, by simp⟩
  | cons first others ih =>
      obtain ⟨firstPlaced, othersPlaced⟩ := List.forall_mem_cons.1 placed
      obtain ⟨firstLater, othersLater⟩ := List.forall_mem_cons.1 later
      obtain ⟨inner, rfl, innerPlaced⟩ := ih othersPlaced othersLater
      obtain ⟨more, split⟩ := isPrefix_of_byteLength_le firstPlaced.symm firstLater
      obtain ⟨_, matched, value, back⟩ := first
      cases split
      refine ⟨⟨more, matched, value, back⟩ :: inner, rfl, ?_⟩
      refine List.forall_mem_cons.2 ⟨?_, innerPlaced⟩
      exact List.append_cancel_left ((List.append_assoc front more _).symm.trans firstPlaced)

theorem Occurrence.eq_of_behind_eq {α : Type} {text : Text} {one other : Occurrence α}
    (same : one.behind text = other.behind text) : one = other := by
  obtain ⟨front, matched, value, back⟩ := one
  obtain ⟨otherFront, otherMatched, otherValue, otherBack⟩ := other
  simp only [behind, mk.injEq, List.append_cancel_left_eq] at same
  obtain ⟨rfl, rfl, rfl, rfl⟩ := same
  rfl

namespace Division

variable {α : Type}

/-- The hits at their places tell a division of a text from all others of it. -/
theorem eq_of_occurrences_eq {one other : Division α} (sources : one.source = other.source)
    (hits : one.occurrences = other.occurrences) : one = other := by
  induction one generalizing other with
  | last gap =>
      cases other with
      | last otherGap => exact congrArg last sources
      | cut => cases hits
  | cut gap matched value tail ih =>
      cases other with
      | last => cases hits
      | cut otherGap otherMatched otherValue otherTail =>
          simp only [occurrences, List.cons.injEq, Occurrence.mk.injEq] at hits
          obtain ⟨⟨rfl, rfl, rfl, tails⟩, behind⟩ := hits
          have tailHits : tail.occurrences = otherTail.occurrences :=
            (List.map_inj_right fun _ _ => Occurrence.eq_of_behind_eq).1 behind
          rw [ih tails tailHits]

/-- Hits that stand in a text one behind the other divide it. -/
theorem exists_of_ordered {text : Text} {found : List (Occurrence α)}
    (placed : ∀ occurrence ∈ found, occurrence.whole = text)
    (ordered : found.Pairwise fun one other => one.stop ≤ other.start) :
    ∃ division : Division α, division.source = text ∧ division.occurrences = found := by
  match found with
  | [] => exact ⟨last text, rfl, rfl⟩
  | ⟨front, matched, value, back⟩ :: others =>
      obtain ⟨firstPlaced, othersPlaced⟩ := List.forall_mem_cons.1 placed
      obtain ⟨later, othersOrdered⟩ := List.pairwise_cons.1 ordered
      have whole : text = (front ++ matched) ++ back :=
        firstPlaced.symm.trans (List.append_assoc front matched back).symm
      obtain ⟨inner, shifted, innerPlaced⟩ := Occurrence.exists_map_behind
        (fun occurrence member => (othersPlaced occurrence member).trans whole)
        (fun occurrence member => (byteLength_append front matched).symm ▸ later occurrence member)
      have innerOrdered : inner.Pairwise fun one other => one.stop ≤ other.start := by
        rw [shifted, List.pairwise_map] at othersOrdered
        refine othersOrdered.imp fun ordered => ?_
        rw [Occurrence.start_behind, Occurrence.stop_behind] at ordered
        omega
      have shorter : inner.length < (⟨front, matched, value, back⟩ :: others).length := by
        rw [shifted, List.length_cons, List.length_map]
        omega
      obtain ⟨tail, source, occurs⟩ := exists_of_ordered innerPlaced innerOrdered
      refine ⟨cut front matched value tail, ?_, ?_⟩
      · rw [whole, List.append_assoc, ← source]
        rfl
      · rw [occurrences, source, occurs, shifted]
termination_by found.length

end Division

/-! ## Drafts -/

/-- Between the gaps of a draft there is the text that a verdict puts in the place of a hit, and the
hit itself if it is kept. Behind the remarks that were there before there is one for each hit that
is flagged or kept. -/
structure Draft.Splices (draft : Draft) (origin : String) (prior : List Remark)
    (judged : Division Verdict) : Prop where
  text : draft.text = judged.weave fun matched verdict =>
    match verdict with
    | .replace text | .flag text _ => text
    | .keep _ => matched
  remarks : draft.remarks = prior ++ judged.occurrences.filterMap fun occurrence =>
    match occurrence.value with
    | .replace _ => none
    | .flag _ reason | .keep reason => some (occurrence.remark origin reason)

theorem writePieces_splices {α σ : Type} (division : Division α) (origin : String)
    (prior : List Remark) (judge : σ → Text → α → Verdict × σ) (memory : σ) :
    (writePieces origin judge memory 1 { text := [], remarks := prior } division.pieces).Splices
      origin prior (division.judged judge memory) := by
  obtain ⟨text, remarks⟩ :=
    writePieces_division origin judge division memory 1 { text := [], remarks := prior }
  refine ⟨text, remarks.trans ?_⟩
  congr 2
  funext ⟨front, matched, verdict, back⟩
  cases verdict <;> rfl

namespace Division

variable {α σ : Type} (division : Division α)

theorem source_judged (judge : σ → Text → α → Verdict × σ) (memory : σ) :
    (division.judged judge memory).source = division.source := by
  induction division generalizing memory with
  | last gap => rfl
  | cut gap matched value tail ih =>
      exact congrArg (fun rest => gap ++ (matched ++ rest)) (ih _)

/-- Where every hit is kept, nothing changes. -/
theorem weave_of_kept {place : Text → Verdict → Text}
    (keeps : ∀ matched reason, place matched (.keep reason) = matched) {judged : Division Verdict}
    (kept : ∀ occurrence ∈ judged.occurrences, ∃ reason, occurrence.value = .keep reason) :
    judged.weave place = judged.source := by
  induction judged with
  | last gap => rfl
  | cut gap matched verdict tail ih =>
      simp only [occurrences, List.forall_mem_cons, List.mem_map, forall_exists_index, and_imp,
        forall_apply_eq_imp_iff₂] at kept
      obtain ⟨⟨reason, rfl⟩, others⟩ := kept
      rw [weave, ih others, keeps]
      rfl

end Division

/-- A run of digits that cannot be made longer. -/
structure Occurrence.IsDigitRun (occurrence : Occurrence Unit) : Prop where
  nonempty : occurrence.matched ≠ []
  digits : ∀ char ∈ occurrence.matched, char.isDigit = true
  opens : NoDigit occurrence.front.getLast?
  closes : NoDigit occurrence.back.head?

/-- An empty place without a digit on either side. -/
structure Occurrence.IsBarePlace (occurrence : Occurrence Unit) : Prop where
  empty : occurrence.matched = []
  opens : NoDigit occurrence.front.getLast?
  closes : NoDigit occurrence.back.head?

theorem Occurrence.isDigitStretch_none_iff {occurrence : Occurrence Unit} :
    occurrence.IsDigitStretch none ↔ occurrence.IsDigitRun ∨ occurrence.IsBarePlace := by
  have last : passed none occurrence.front = occurrence.front.getLast? := by
    rw [passed_eq, Option.or_none]
  constructor
  · rintro ⟨digits, opens, closes⟩
    rw [last] at opens
    by_cases empty : occurrence.matched = []
    · exact .inr ⟨empty, opens, closes⟩
    · exact .inl ⟨empty, digits, opens, closes⟩
  · rintro (⟨_, digits, opens, closes⟩ | ⟨empty, opens, closes⟩)
    · exact ⟨digits, last ▸ opens, closes⟩
    · exact ⟨by simp [empty], last ▸ opens, closes⟩

/-- Hits that stand in a text one behind the other divide it in one way, and whatever is decided
about them, in turn and with all earlier hits in mind, the outcomes are spliced between the gaps. An
edit is such a splice. The patterns of digits find the longest runs of digits, and the one that may
be empty also the bare places. -/
theorem splices_of_ordered :
    (∀ (α : Type) (text : Text) (found : List (Occurrence α)),
      (∀ occurrence ∈ found, occurrence.whole = text) →
      found.Pairwise (fun one other => one.stop ≤ other.start) →
      ∃ division : Division α, division.source = text ∧ division.occurrences = found ∧
        (∀ other : Division α, other.source = text → other.occurrences = found →
          other = division) ∧
        ∀ (σ : Type) (judge : σ → Text → α → Verdict × σ) (memory : σ) (origin : String)
          (prior : List Remark),
          let judged := division.judged judge memory
          let draft :=
            writePieces origin judge memory 1 { text := [], remarks := prior } division.pieces
          draft.Splices origin prior judged ∧
            ((∀ occurrence ∈ judged.occurrences, ∃ reason, occurrence.value = .keep reason) →
              draft.text = text)) ∧
    (∀ (α : Type) (recognizer : Recognizer α) (origin : String)
      (judge : Nat → Text → α → Verdict) (text : Text),
      (recognizer.division text).source = text ∧
        recognizer.edit origin judge text =
          writePieces origin (countHits judge) 0 1 { text := [] }
            (recognizer.division text).pieces) ∧
    ∀ text,
      ((Recognizer.digits.occurrences text).Pairwise (fun one other => one.start < other.start) ∧
        ∀ occurrence, occurrence ∈ Recognizer.digits.occurrences text ↔
          occurrence.whole = text ∧ occurrence.IsDigitRun) ∧
      ((Recognizer.digitsOrNothing.occurrences text).Pairwise
          (fun one other => one.start < other.start) ∧
        ∀ occurrence, occurrence ∈ Recognizer.digitsOrNothing.occurrences text ↔
          occurrence.whole = text ∧ (occurrence.IsDigitRun ∨ occurrence.IsBarePlace)) := by
  refine ⟨?splices, ?edits, fun text => ?digits⟩
  case splices =>
    intro α text found placed ordered
    obtain ⟨division, source, occurs⟩ := Division.exists_of_ordered placed ordered
    refine ⟨division, source, occurs, ?_, fun σ judge memory origin prior => ?_⟩
    · intro other otherSource otherOccurs
      exact Division.eq_of_occurrences_eq (otherSource.trans source.symm)
        (otherOccurs.trans occurs.symm)
    · have splices := writePieces_splices division origin prior judge memory
      refine ⟨splices, fun kept => ?_⟩
      rw [splices.text, Division.weave_of_kept (fun _ _ => rfl) kept, Division.source_judged,
        source]
  case edits =>
    intro α recognizer origin judge text
    exact ⟨recognizer.source_division text, recognizer.edit_eq_writePieces origin text judge⟩
  case digits =>
    have lists := Recognizer.listsDigits_occurrences text
    refine ⟨⟨?_, fun occurrence => ?_⟩, lists.ordered, fun occurrence => ?_⟩
    · rw [Recognizer.occurrences_digits]
      exact lists.ordered.filter _
    · rw [Recognizer.occurrences_digits, List.mem_filter, lists.mem_iff,
        Occurrence.isDigitStretch_none_iff, decide_eq_true_eq]
      constructor
      · rintro ⟨⟨whole, run | ⟨empty, _⟩⟩, nonempty⟩
        · exact ⟨whole, run⟩
        · exact absurd empty nonempty
      · rintro ⟨whole, run⟩
        exact ⟨⟨whole, .inl run⟩, run.nonempty⟩
    · rw [lists.mem_iff, Occurrence.isDigitStretch_none_iff]

/-- Empty hits at both ends of a text, and between them a hit behind a character of two bytes. -/
def bareEnds : List (Occurrence Unit) :=
  [⟨[], [], (), "é7\n".toList⟩, ⟨"é".toList, "7".toList, (), "\n".toList⟩,
    ⟨"é7\n".toList, [], (), []⟩]

/-- The text with these hits, and the gaps around them. -/
def bareDivision : Division Unit :=
  .cut [] [] () (.cut "é".toList "7".toList () (.cut "\n".toList [] () (.last [])))

/-- Replace the second hit and keep all others. -/
def replaceSecond (index : Nat) (_ : Text) (_ : Unit) : Verdict :=
  if index = 1 then .replace "<7>".toList else .keep .strayClose

theorem splices_of_ordered_bareEnds :
    (∀ occurrence ∈ bareEnds, occurrence.whole = "é7\n".toList) ∧
      bareEnds.Pairwise (fun one other => one.stop ≤ other.start) ∧
      ∃ division : Division Unit, division.source = "é7\n".toList ∧
        division.occurrences = bareEnds ∧
        ∀ prior,
          let draft := writePieces "test" (countHits replaceSecond) 0 1
            { text := [], remarks := prior } division.pieces
          draft.Splices "test" prior (division.judged (countHits replaceSecond) 0) ∧
            draft.text = "é<7>\n".toList ∧
            draft.remarks = prior ++
              [{ origin := "test", line := 1, reason := .strayClose, snippet := [] },
               { origin := "test", line := 2, reason := .strayClose, snippet := [] }] := by
  have placed : ∀ occurrence ∈ bareEnds, occurrence.whole = "é7\n".toList := by decide
  have ordered : bareEnds.Pairwise (fun one other => one.stop ≤ other.start) := by decide
  obtain ⟨division, source, occurs, unique, splices⟩ :=
    splices_of_ordered.1 Unit "é7\n".toList bareEnds placed ordered
  -- There is only one division with these hits, so that the splice can be computed.
  have isDivision : bareDivision = division := unique bareDivision rfl rfl
  subst isDivision
  refine ⟨placed, ordered, bareDivision, source, occurs, fun prior => ?_⟩
  have spliced := (splices Nat (countHits replaceSecond) 0 "test" prior).1
  exact ⟨spliced, spliced.text, spliced.remarks⟩

end Offside
