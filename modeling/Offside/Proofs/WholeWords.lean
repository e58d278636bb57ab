import Offside.Proofs.Naming
import Offside.Proofs.Quiescence
import Offside.Proofs.Text.Silence

/-!
# Renaming of whole words

A built-in is hidden exactly if its name stands somewhere as a whole word with a single equals
sign behind it. Renaming the hidden names one after the other amounts to one replacement of all
their words at once. The order of the names therefore does not matter, none of them is left, and
a second renaming finds nothing to do.
-/

namespace Offside

/-! ## Constructs that do not overlap -/

namespace Recognizer

variable {α : Type} {recognizer : Recognizer α}

/-- No construct starts inside another one. -/
def Solitary (recognizer : Recognizer α) : Prop :=
  ∀ before front back rest value, front ≠ [] → back ≠ [] →
    recognizer.at? before (front ++ (back ++ rest)) = some (value, rest) →
    recognizer.at? (passed before front) (back ++ rest) = none

/-- Where constructs do not overlap, each of them is a hit. -/
theorem Cuts.hit_mem (solitary : recognizer.Solitary) (proper : recognizer.Proper)
    {before : Option Char} {text : Text} {pieces : List (Piece α)}
    (cuts : recognizer.Cuts before text pieces) {front here rest : Text} {value : α}
    (split : text = front ++ here)
    (found : recognizer.at? (passed before front) here = some (value, rest)) :
    ∃ matched, .hit matched value ∈ pieces := by
  induction cuts generalizing front with
  | nil =>
      obtain ⟨rfl, rfl⟩ := List.append_eq_nil_iff.1 split.symm
      simp [proper.at?_nil] at found
  | gap missing _ ih =>
      cases front with
      | nil => simp_all
      | cons char front =>
          simp only [List.cons_append, List.cons.injEq] at split
          obtain ⟨rfl, split⟩ := split
          obtain ⟨matched, member⟩ := ih split found
          exact ⟨matched, List.mem_cons_of_mem _ member⟩
  | @hit before matched left other pieces nonempty foundFirst _ ih =>
      rcases List.append_eq_append_iff.1 split with ⟨between, rfl, behind⟩ | ⟨inside, rfl, rfl⟩
      · rw [passed_append] at found
        obtain ⟨later, member⟩ := ih behind found
        exact ⟨later, List.mem_cons_of_mem _ member⟩
      · cases front with
        | nil =>
            rw [List.nil_append] at foundFirst
            cases foundFirst.symm.trans found
            exact ⟨_, List.mem_cons_self⟩
        | cons char front =>
            by_cases last : inside = []
            · subst last
              rw [List.append_nil] at ih
              have behind : left = [] ++ ([] ++ left) := rfl
              obtain ⟨later, member⟩ := ih behind found
              exact ⟨later, List.mem_cons_of_mem _ member⟩
            · rw [List.append_assoc] at foundFirst
              have missing := solitary _ _ _ _ _ (List.cons_ne_nil char front) last foundFirst
              cases missing.symm.trans found

end Recognizer

/-! ## Words between their neighbours -/

theorem opensWord_passed_eq_false {run : Text} (nonempty : run ≠ [])
    (inside : ∀ char ∈ run, isWordChar char = true) (before : Option Char) :
    opensWord (passed before run) = false := by
  have last := List.getLast?_eq_some_getLast nonempty
  simp [passed_eq, last, opensWord, inside _ (List.getLast_mem nonempty)]

/-- A word stands between two texts, and goes on in neither of them. -/
structure WordBetween (front word back : Text) : Prop where
  isWord : IsWord word
  opens : opensWord front.getLast? = true
  closes : closesWord back = true

/-- A text has some word as a whole word. -/
def HasWord (word text : Text) : Prop :=
  ∃ front back, WordBetween front word back ∧ text = front ++ (word ++ back)

/-- A name is assigned to: behind one of its words there is a single equals sign. -/
def IsAssigned (name text : Text) : Prop :=
  ∃ front blanks rest, WordBetween front name (blanks ++ '=' :: rest) ∧ AllBlank blanks ∧
    rest.head? ≠ some '=' ∧ text = front ++ (name ++ (blanks ++ '=' :: rest))

theorem opensWord_getLast? (front : Text) :
    opensWord front.getLast? = opensWord (passed none front) := by
  simp [passed_eq]

/-! ## Words of a text whose words are replaced -/

section MapWords

variable {image : Text → Text}

theorem closesWord_mapWords (image : Text → Text) {rest : Text} (closes : closesWord rest = true) :
    closesWord (mapWords image rest) = true := by
  cases rest with
  | nil => simp [closesWord, opensWord]
  | cons char rest =>
      have outside := closesWord_iff.1 closes char rfl
      rw [mapWords_cons_of_outside image outside]
      exact closesWord_cons outside

/-- A character outside words was there before. -/
theorem exists_of_mapWords_eq_cons (keeps : ∀ word, IsWord word → IsWord (image word))
    {text rest : Text} {char : Char} (outside : isWordChar char = false)
    (mapped : mapWords image text = char :: rest) :
    ∃ source, text = char :: source ∧ rest = mapWords image source := by
  rcases word_cases text with rfl | ⟨first, source, isOutside, rfl⟩ |
    ⟨word, source, isWord, closes, rfl⟩
  · simp at mapped
  · rw [mapWords_cons_of_outside image isOutside, List.cons.injEq] at mapped
    exact ⟨source, by rw [mapped.1], mapped.2.symm⟩
  · rw [mapWords_append_of_isWord image isWord closes] at mapped
    obtain ⟨first, others, shape⟩ := List.exists_cons_of_ne_nil (keeps word isWord).nonempty
    have inside := (keeps word isWord).inside first (by simp [shape])
    simp only [shape, List.cons_append, List.cons.injEq] at mapped
    simp [mapped.1, outside] at inside

theorem exists_of_mapWords_eq_append (keeps : ∀ word, IsWord word → IsWord (image word))
    {text blanks rest : Text} (blank : AllBlank blanks) {char : Char}
    (outside : isWordChar char = false) (mapped : mapWords image text = blanks ++ char :: rest) :
    ∃ source, text = blanks ++ char :: source ∧ rest = mapWords image source := by
  induction blanks generalizing text with
  | nil => exact exists_of_mapWords_eq_cons keeps outside mapped
  | cons first blanks ih =>
      have firstOutside := isWordChar_of_isBlank (blank first List.mem_cons_self)
      obtain ⟨source, rfl, behind⟩ := exists_of_mapWords_eq_cons keeps firstOutside mapped
      obtain ⟨left, rfl, same⟩ :=
        ih (fun other member => blank other (List.mem_cons_of_mem first member)) behind.symm
      exact ⟨left, rfl, same⟩

theorem opensWord_passed_congr {before other : Option Char}
    (same : opensWord before = opensWord other) (text : Text) :
    opensWord (passed before text) = opensWord (passed other text) := by
  cases last : text.getLast? <;> simp [passed_eq, last, same]

/-- A word of the new text is what has become of a word of the old one. -/
theorem exists_of_wordBetween_mapWords (keeps : ∀ word, IsWord word → IsWord (image word))
    {text front word back : Text} {before : Option Char} (isWord : IsWord word)
    (opens : opensWord (passed before front) = true) (closes : closesWord back = true)
    (mapped : mapWords image text = front ++ (word ++ back)) :
    ∃ source origin behind, IsWord origin ∧ opensWord (passed before source) = true ∧
      closesWord behind = true ∧ text = source ++ (origin ++ behind) ∧ word = image origin ∧
      back = mapWords image behind := by
  induction text using word_induction generalizing front before with
  | nil =>
      have empty : word = [] := by simp_all
      exact absurd empty isWord.nonempty
  | outside char rest outside ih =>
      rw [mapWords_cons_of_outside image outside] at mapped
      cases front with
      | nil =>
          obtain ⟨first, others, rfl⟩ := List.exists_cons_of_ne_nil isWord.nonempty
          have inside := isWord.inside first List.mem_cons_self
          simp only [List.nil_append, List.cons_append, List.cons.injEq] at mapped
          simp [← mapped.1, outside] at inside
      | cons first front =>
          simp only [List.cons_append, List.cons.injEq] at mapped
          obtain ⟨rfl, mapped⟩ := mapped
          have opensBehind : opensWord (passed (some char) front) = true := opens
          obtain ⟨source, origin, behind, isOrigin, opensOrigin, closesOrigin, rfl, images⟩ :=
            ih opensBehind mapped
          exact ⟨char :: source, origin, behind, isOrigin, opensOrigin, closesOrigin, rfl, images⟩
  | word origin rest isOrigin closesOrigin ih =>
      have isImage := keeps origin isOrigin
      have closesImage := closesWord_mapWords image closesOrigin
      have insideOrigin := opensWord_passed_eq_false isOrigin.nonempty isOrigin.inside before
      rw [mapWords_append_of_isWord image isOrigin closesOrigin] at mapped
      rcases List.append_eq_append_iff.1 mapped with ⟨between, rfl, later⟩ | ⟨inside, split, here⟩
      · -- The word stands behind the first one.
        rw [passed_append] at opens
        have insideImage := opensWord_passed_eq_false isImage.nonempty isImage.inside before
        obtain ⟨source, other, behind, isOther, opensOther, closesOther, rfl, images⟩ :=
          ih opens later
        refine ⟨origin ++ source, other, behind, isOther, ?_, closesOther, ?_, images⟩
        · rw [passed_append, ← opensOther]
          exact opensWord_passed_congr (insideOrigin.trans insideImage.symm) source
        · simp
      · -- The word can only be the first one, since it starts where a word can start.
        cases front with
        | nil =>
            rw [List.nil_append] at split
            have first := isWord.takeWhile_append closes
            have behind := isWord.dropWhile_append closes
            rw [here, ← split, isImage.takeWhile_append closesImage] at first
            rw [here, ← split, isImage.dropWhile_append closesImage] at behind
            exact ⟨[], origin, rest, isOrigin, opens, closesOrigin, rfl, first.symm, behind.symm⟩
        | cons char front =>
            have insideFront : ∀ other ∈ char :: front, isWordChar other = true := fun other member =>
              isImage.inside other (split ▸ List.mem_append_left inside member)
            have closed := opensWord_passed_eq_false (List.cons_ne_nil char front) insideFront before
            cases closed.symm.trans opens

/-- One replacement after another. -/
theorem mapWords_mapWords (keeps : ∀ word, IsWord word → IsWord (image word))
    (other : Text → Text) (text : Text) :
    mapWords other (mapWords image text) = mapWords (fun word => other (image word)) text := by
  induction text using word_induction with
  | nil => simp
  | outside char rest outside ih => simp [mapWords_cons_of_outside _ outside, ih]
  | word word rest isWord closes ih =>
      have closesImage := closesWord_mapWords image closes
      simp [mapWords_append_of_isWord _ isWord closes,
        mapWords_append_of_isWord _ (keeps word isWord) closesImage, ih]

theorem mapWords_congr {other : Text → Text} (same : ∀ word, IsWord word → image word = other word)
    (text : Text) : mapWords image text = mapWords other text := by
  induction text using word_induction with
  | nil => simp
  | outside char rest outside ih => simp [mapWords_cons_of_outside _ outside, ih]
  | word word rest isWord closes ih =>
      simp [mapWords_append_of_isWord _ isWord closes, same word isWord, ih]

theorem mapWords_id (text : Text) : mapWords (fun word => word) text = text := by
  induction text using word_induction with
  | nil => simp
  | outside char rest outside ih => simp [mapWords_cons_of_outside _ outside, ih]
  | word word rest isWord closes ih => simp [mapWords_append_of_isWord _ isWord closes, ih]

end MapWords

/-! ## Names that are assigned to -/

/-- An equals sign, single or doubled, stands behind an identifier and blanks. -/
theorem exists_of_equalsSign_at? {before : Option Char} {text rest : Text} {sign : EqualsSign}
    (found : equalsSign.at? before text = some (sign, rest)) :
    opensWord before = true ∧ IsWord sign.identifier ∧
      ∃ blanks marks, AllBlank blanks ∧ (∀ mark ∈ marks, mark = '=') ∧
        text = sign.identifier ++ (blanks ++ (marks ++ rest)) ∧
        (sign.doubled = false → marks = ['='] ∧ rest.head? ≠ some '=') := by
  rw [equalsSign_at?] at found
  simp only [Option.bind_eq_some_iff, Option.guard_eq_some'] at found
  obtain ⟨_, opens, _, starts, behind, expected, result⟩ := found
  have identifier : sign.identifier = text.takeWhile isIdentifierChar := by
    split at result <;> cases result <;> rfl
  obtain ⟨blanks, blank, skipped⟩ := exists_append_skipBlanks (text.dropWhile isIdentifierChar)
  have signed : skipBlanks (text.dropWhile isIdentifierChar) = '=' :: behind :=
    expect?_eq_some.1 expected
  have cut : text = sign.identifier ++ (blanks ++ '=' :: behind) := by
    rw [identifier, ← signed, ← skipped, List.takeWhile_append_dropWhile]
  have isWord : IsWord sign.identifier := by
    rw [identifier]
    constructor
    · cases text with
      | nil => cases starts
      | cons char text =>
          have inside : isIdentifierChar char = true := by
            have first : isIdentifierStart char = true := starts
            simp only [isIdentifierStart, isIdentifierChar, Bool.or_eq_true] at first ⊢
            exact first.imp_left isAlphanum_of_isAlpha
          simp [inside]
    · intro char member
      exact isWordChar_of_isIdentifierChar (List.all_eq_true.1 List.all_takeWhile char member)
  refine ⟨opens, isWord, ?_⟩
  split at result
  · next doubled =>
      cases result
      have another : behind = '=' :: rest := expect?_eq_some.1 doubled
      rw [another] at cut
      exact ⟨blanks, ['=', '='], blank, by simp, cut, nofun⟩
  · next single =>
      cases result
      refine ⟨blanks, ['='], blank, by simp, cut, fun _ => ⟨rfl, ?_⟩⟩
      intro another
      obtain ⟨others, rfl⟩ := List.head?_eq_some_iff.1 another
      cases single

theorem equalsSign_at?_eq_none_of_inside {before : Option Char} (inside : opensWord before = false)
    (text : Text) : equalsSign.at? before text = none := by
  rw [equalsSign_at?, guard_of_false (by simp [inside])]
  rfl

theorem equalsSign_at?_eq_none_of_head {char : Char} (noStart : isIdentifierStart char = false)
    (before : Option Char) (text : Text) : equalsSign.at? before (char :: text) = none := by
  have outside : ¬((char :: text).head?.any isIdentifierStart = true) := by simp [noStart]
  rw [equalsSign_at?, guard_of_false outside]
  cases (guard (opensWord before = true) : Option Unit) <;> rfl

/-- Behind the start of an identifier no other one starts before its equals sign. -/
theorem equalsSign_solitary : equalsSign.Solitary := by
  intro before front back rest sign frontNonempty backNonempty found
  obtain ⟨_, isWord, blanks, marks, blank, areMarks, split, _⟩ := exists_of_equalsSign_at? found
  have same : front ++ back = sign.identifier ++ (blanks ++ marks) := by
    have whole : front ++ back ++ rest = sign.identifier ++ (blanks ++ marks) ++ rest := by
      simpa using split
    exact List.append_cancel_right whole
  rcases List.append_eq_append_iff.1 same with ⟨behind, inFront, _⟩ | ⟨between, rfl, signs⟩
  · apply equalsSign_at?_eq_none_of_inside
    apply opensWord_passed_eq_false frontNonempty
    intro char member
    exact isWord.inside char (inFront ▸ List.mem_append_left behind member)
  · obtain ⟨char, others, rfl⟩ := List.exists_cons_of_ne_nil backNonempty
    have member : char ∈ blanks ++ marks := signs ▸ List.mem_append_right between List.mem_cons_self
    apply equalsSign_at?_eq_none_of_head
    rcases List.mem_append.1 member with inBlanks | inMarks
    · cases starts : isIdentifierStart char with
      | false => rfl
      | true =>
          have solid := isBlank_eq_false_of_isIdentifierStart starts
          simp [blank char inBlanks] at solid
    · rw [areMarks char inMarks]
      rfl

theorem equalsSign_at?_append (name : Identifier) {before : Option Char} {blanks rest : Text}
    (opens : opensWord before = true) (blank : AllBlank blanks)
    (single : rest.head? ≠ some '=') :
    equalsSign.at? before (name.text ++ (blanks ++ '=' :: rest)) =
      some ({ identifier := name.text, doubled := false }, rest) := by
  have starts : (name.text ++ (blanks ++ '=' :: rest)).head?.any isIdentifierStart = true := by
    obtain ⟨char, others, shape⟩ := List.exists_cons_of_ne_nil name.nonempty
    have first := name.starts char (by simp [shape])
    simp [shape, first]
  have stop : ∀ char, (blanks ++ '=' :: rest).head? = some char →
      isIdentifierChar char = false := by
    intro char first
    have closes : closesWord (blanks ++ '=' :: rest) = true :=
      blank.closesWord_append (closesWord_cons rfl)
    have outside := closesWord_iff.1 closes char first
    cases inside : isIdentifierChar char with
    | false => rfl
    | true => simp [isWordChar_of_isIdentifierChar inside] at outside
  have signed : expect? "=".toList (skipBlanks (blanks ++ '=' :: rest)) = some rest := by
    rw [skipBlanks_append blank, skipBlanks_cons_of_solid (by decide)]
    exact expect?_append ['='] rest
  have notDoubled : expect? "=".toList rest = none := by
    apply expect?_eq_none
    rintro ⟨others, rfl⟩
    exact single rfl
  rw [equalsSign_at?, guard_of_true opens, guard_of_true starts,
    takeWhile_append_of_stop name.inside stop, dropWhile_append_of_stop name.inside stop, signed]
  simp only [Option.bind_some, notDoubled]

/-- The names that are found are those with a single equals sign behind one of their words. -/
theorem mem_assignedNames_iff (name : Identifier) (text : Text) :
    name.text ∈ assignedNames text ↔ IsAssigned name.text text := by
  constructor
  · intro member
    obtain ⟨⟨matched, sign⟩, isHit, chosen⟩ := List.mem_filterMap.1 member
    have named : (if sign.doubled then none else some sign.identifier) = some name.text := chosen
    simp only [Option.ite_none_left_eq_some, Bool.not_eq_true, Option.some.injEq] at named
    obtain ⟨single, isName⟩ := named
    obtain ⟨piece, inPieces, hit⟩ := List.mem_filterMap.1 isHit
    cases piece with
    | gap char => cases hit
    | hit =>
        cases hit
        obtain ⟨front, here, left, rfl, found⟩ :=
          (equalsSign_proper.cuts none text).exists_of_hit_mem inPieces
        obtain ⟨opens, isWord, blanks, marks, blank, _, rfl, ends⟩ := exists_of_equalsSign_at? found
        obtain ⟨rfl, another⟩ := ends single
        refine ⟨front, blanks, left, ⟨name.isWord, ?_, ?_⟩, blank, another, by simp [isName]⟩
        · rw [opensWord_getLast?]
          exact opens
        · exact blank.closesWord_append (closesWord_cons rfl)
  · rintro ⟨front, blanks, rest, between, blank, single, split⟩
    have opens := between.opens
    rw [opensWord_getLast?] at opens
    obtain ⟨matched, member⟩ := (equalsSign_proper.cuts none text).hit_mem equalsSign_solitary
      equalsSign_proper split (equalsSign_at?_append name opens blank single)
    exact List.mem_filterMap.2 ⟨_, List.mem_filterMap.2 ⟨_, member, rfl⟩, rfl⟩

/-! ## Renaming at once -/

/-- What becomes of a word when some names are renamed. -/
def renamedAmong (names : List Text) (word : Text) : Text :=
  if names.contains word then freshName word else word

theorem isWord_freshName {name : Text} (isName : IsWord name) : IsWord (freshName name) := by
  have ending : ∀ char ∈ freshEnding.toList, isWordChar char = true := by decide
  constructor
  · simp [freshName, isName.nonempty]
  · intro char member
    rcases List.mem_append.1 member with inName | inEnding
    · exact isName.inside char inName
    · exact ending char inEnding

theorem isWord_renamedAmong (names : List Text) (word : Text) (isWord : IsWord word) :
    IsWord (renamedAmong names word) := by
  rw [renamedAmong]
  split
  · exact isWord_freshName isWord
  · exact isWord

/-- The new name of a variable is no built-in. -/
theorem freshName_notMem_builtinNames (name : Text) :
    freshName name ∉ builtinNames.map String.toList := by
  have endings : ∀ builtin ∈ builtinNames.map String.toList, ¬freshEnding.toList <:+ builtin := by
    decide
  exact fun member => endings _ member (List.suffix_append name freshEnding.toList)

/-- Renaming one name after the other replaces the words of all of them at once. -/
theorem foldl_rename_eq_mapWords {names : List Text}
    (builtin : names ⊆ builtinNames.map String.toList) (text : Text) :
    names.foldl rename text = mapWords (renamedAmong names) text := by
  induction names generalizing text with
  | nil =>
      have nothing : renamedAmong [] = fun word => word := by
        funext word
        simp [renamedAmong]
      rw [nothing, mapWords_id]
      rfl
  | cons name names ih =>
      have isName := isWord_of_mem_builtinNames (builtin List.mem_cons_self)
      have others := List.cons_subset.1 builtin |>.2
      have keeps : ∀ word, IsWord word → IsWord (renamedWord name word) := by
        intro word isWord
        rw [renamedWord]
        split
        · exact isWord_freshName isName
        · exact isWord
      have fresh : freshName name ∉ names := fun member =>
        freshName_notMem_builtinNames name (others member)
      rw [List.foldl_cons, ih others, rename_eq_mapWords isName, mapWords_mapWords keeps]
      apply mapWords_congr
      intro word _
      by_cases same : word = name
      · simp [renamedWord, renamedAmong, same, fresh]
      · simp [renamedWord, renamedAmong, same]

section Hidden

variable (text : Text)

theorem hiddenBuiltins_subset : hiddenBuiltins text ⊆ builtinNames.map String.toList :=
  List.filter_subset_self _

/-- The built-in names as identifiers. -/
theorem exists_identifier_of_mem_builtinNames {name : Text}
    (builtin : name ∈ builtinNames.map String.toList) :
    ∃ identifier : Identifier, identifier.text = name := by
  have starts : ∀ name ∈ builtinNames.map String.toList,
      name.head?.all isIdentifierStart = true := by decide
  have inside : ∀ name ∈ builtinNames.map String.toList,
      ∀ char ∈ name, isIdentifierChar char = true := by decide
  refine ⟨⟨name, (isWord_of_mem_builtinNames builtin).nonempty, ?_, inside name builtin⟩, rfl⟩
  intro char first
  simpa [first] using starts name builtin

theorem mem_hiddenBuiltins_iff {name : Text} :
    name ∈ hiddenBuiltins text ↔
      name ∈ builtinNames.map String.toList ∧ IsAssigned name text := by
  have members : name ∈ hiddenBuiltins text ↔
      name ∈ builtinNames.map String.toList ∧ name ∈ assignedNames text := by
    simp [hiddenBuiltins]
  rw [members]
  apply and_congr_right
  intro builtin
  obtain ⟨identifier, rfl⟩ := exists_identifier_of_mem_builtinNames builtin
  exact mem_assignedNames_iff identifier text

theorem convertNames_eq_mapWords :
    (convertNames text).text = mapWords (renamedAmong (hiddenBuiltins text)) text :=
  foldl_rename_eq_mapWords (hiddenBuiltins_subset text) text

/-- A built-in name that is left as a word was there before, and is not hidden. -/
theorem exists_of_wordBetween_convertNames {name front back : Text}
    (builtin : name ∈ builtinNames.map String.toList) (between : WordBetween front name back)
    (split : (convertNames text).text = front ++ (name ++ back)) :
    name ∉ hiddenBuiltins text ∧ ∃ source behind, WordBetween source name behind ∧
      text = source ++ (name ++ behind) ∧
      back = mapWords (renamedAmong (hiddenBuiltins text)) behind := by
  have opens := between.opens
  rw [opensWord_getLast?] at opens
  rw [convertNames_eq_mapWords] at split
  obtain ⟨source, origin, behind, isOrigin, opensOrigin, closes, whole, isImage, rest⟩ :=
    exists_of_wordBetween_mapWords (isWord_renamedAmong _) between.isWord opens between.closes split
  have kept : origin ∉ hiddenBuiltins text := by
    intro hidden
    rw [isImage, renamedAmong, if_pos (List.contains_iff_mem.2 hidden)] at builtin
    exact freshName_notMem_builtinNames origin builtin
  rw [renamedAmong, if_neg fun hidden => kept (List.contains_iff_mem.1 hidden)] at isImage
  subst isImage
  refine ⟨kept, source, behind, ⟨isOrigin, ?_, closes⟩, whole, rest⟩
  rw [opensWord_getLast?]
  exact opensOrigin

/-- After renaming no built-in is hidden. -/
theorem hiddenBuiltins_convertNames : hiddenBuiltins (convertNames text).text = [] := by
  rw [List.eq_nil_iff_forall_not_mem]
  intro name hidden
  obtain ⟨builtin, front, blanks, rest, between, blank, single, split⟩ :=
    (mem_hiddenBuiltins_iff _).1 hidden
  obtain ⟨kept, source, behind, origin, whole, mapped⟩ :=
    exists_of_wordBetween_convertNames text builtin between split
  -- The blanks and the sign were behind the word before, and the sign was single.
  obtain ⟨left, rfl, rfl⟩ :=
    exists_of_mapWords_eq_append (isWord_renamedAmong _) blank (by decide) mapped.symm
  have alone : left.head? ≠ some '=' := by
    intro first
    obtain ⟨others, rfl⟩ := List.head?_eq_some_iff.1 first
    rw [mapWords_cons_of_outside _ (by decide)] at single
    exact single rfl
  exact kept ((mem_hiddenBuiltins_iff text).2 ⟨builtin, source, blanks, left, origin, blank, alone,
    whole⟩)

end Hidden

/-- The hidden names are those of the table, in its order, with a single equals sign behind one
of their words. Exactly the words that are hidden names get the new ending, in whatever order the
names are taken; none of the names is left as a word, and a second renaming changes nothing. -/
theorem convertNames_wholeWords (text : Text) :
    (hiddenBuiltins text).Sublist (builtinNames.map String.toList) ∧
      (∀ name, name ∈ hiddenBuiltins text ↔
        name ∈ builtinNames.map String.toList ∧ IsAssigned name text) ∧
      (convertNames text).text =
        mapWords (fun word => if word ∈ hiddenBuiltins text then word ++ "_var".toList else word)
          text ∧
      (∀ order : List Text, order.Perm (hiddenBuiltins text) →
        order.foldl rename text = (convertNames text).text) ∧
      (∀ name ∈ hiddenBuiltins text, ¬HasWord name (convertNames text).text) ∧
      (convertNames (convertNames text).text).text = (convertNames text).text := by
  refine ⟨List.filter_sublist, fun name => mem_hiddenBuiltins_iff text, ?_, ?_, ?_, ?_⟩
  · rw [convertNames_eq_mapWords]
    apply mapWords_congr
    intro word _
    simp [renamedAmong, freshName, freshEnding]
  · intro order permuted
    have builtin : order ⊆ builtinNames.map String.toList :=
      List.Subset.trans permuted.subset (hiddenBuiltins_subset text)
    rw [foldl_rename_eq_mapWords builtin, convertNames_eq_mapWords]
    apply mapWords_congr
    intro word _
    simp [renamedAmong, permuted.mem_iff]
  · rintro name hidden ⟨front, back, between, split⟩
    have builtin := hiddenBuiltins_subset text hidden
    exact (exists_of_wordBetween_convertNames text builtin between split).1 hidden
  · generalize renamed : (convertNames text).text = result
    have quiet : hiddenBuiltins result = [] := renamed ▸ hiddenBuiltins_convertNames text
    simp [convertNames, quiet]

/-- Two hidden names that stand in each other's assignments, next to a comparison and to a longer
word. -/
def crossedNames : Text :=
  "max = sum == min\nsum=max + maxé".toList

theorem convertNames_wholeWords_crossedNames :
    ["max".toList, "sum".toList].Perm (hiddenBuiltins crossedNames) ∧
      "max".toList ∈ hiddenBuiltins crossedNames ∧
      ["max".toList, "sum".toList].foldl rename crossedNames = (convertNames crossedNames).text ∧
      ¬HasWord "max".toList (convertNames crossedNames).text := by
  have hidden : hiddenBuiltins crossedNames = ["sum".toList, "max".toList] := by decide +kernel
  have swapped : ["max".toList, "sum".toList].Perm (hiddenBuiltins crossedNames) :=
    hidden ▸ List.Perm.swap _ _ _
  have member : "max".toList ∈ hiddenBuiltins crossedNames := swapped.subset List.mem_cons_self
  obtain ⟨_, _, _, anyOrder, gone, _⟩ := convertNames_wholeWords crossedNames
  exact ⟨swapped, member, anyOrder _ swapped, gone _ member⟩

end Offside
