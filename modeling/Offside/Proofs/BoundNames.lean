import Offside.Proofs.Sequence
import Offside.Proofs.WholeWords

/-!
# Names that stay bound

A built-in name is renamed if something is assigned to it. After that nothing is assigned to a
built-in name any more. The header of a loop over a range binds its variable without an equals sign.
Such a variable keeps the name of a built-in, unless the same name is assigned to somewhere else in
the text.
-/

namespace Offside

/-- The start of the header of a loop over a range. -/
def rangeOpening (name : Text) : Text :=
  "for ".toList ++ (name ++ " in range(".toList)

/-- A name is the variable of a loop over a range. -/
def IsRangeVariable (name text : Text) : Prop :=
  ∃ front back, opensWord front.getLast? = true ∧ text = front ++ (rangeOpening name ++ back)

/-! ## Trimmed texts -/

section Trimmed

variable {name text : Text}

/-- Between blanks a word can start where it could start before. -/
theorem opensWord_getLast?_append {blanks front : Text} (blank : AllBlank blanks)
    (opens : opensWord front.getLast? = true) : opensWord (blanks ++ front).getLast? = true := by
  have opensBlanks : opensWord (passed none blanks) = true := opensWord_passed_of_blank blank rfl
  rw [opensWord_getLast?] at opens ⊢
  rw [passed_append, ← opens]
  exact opensWord_passed_congr opensBlanks front

theorem closesWord_append_blanks {back blanks : Text} (closes : closesWord back = true)
    (blank : AllBlank blanks) : closesWord (back ++ blanks) = true := by
  cases back with
  | nil =>
      have empty : closesWord [] = true := rfl
      have blanksClose := blank.closesWord_append empty
      rwa [List.append_nil] at blanksClose
  | cons char back => exact closesWord_cons (closesWord_iff.1 closes char rfl)

theorem HasWord.of_trim (has : HasWord name (trim text)) : HasWord name text := by
  obtain ⟨lead, trailing, leadBlank, trailingBlank, surrounded⟩ := exists_surrounded_trim text
  obtain ⟨front, back, between, split⟩ := has
  refine ⟨lead ++ front, back ++ trailing, ?_, ?_⟩
  · exact ⟨between.isWord, opensWord_getLast?_append leadBlank between.opens,
      closesWord_append_blanks between.closes trailingBlank⟩
  · rw [surrounded, split]
    simp

theorem IsAssigned.of_trim (assigned : IsAssigned name (trim text)) : IsAssigned name text := by
  obtain ⟨lead, trailing, leadBlank, trailingBlank, surrounded⟩ := exists_surrounded_trim text
  obtain ⟨front, blanks, rest, between, blank, single, split⟩ := assigned
  refine ⟨lead ++ front, blanks, rest ++ trailing, ?_, blank, ?_, ?_⟩
  · refine ⟨between.isWord, opensWord_getLast?_append leadBlank between.opens, ?_⟩
    exact blank.closesWord_append (closesWord_cons rfl)
  · intro first
    cases rest with
    | nil =>
        rw [List.nil_append] at first
        exact absurd (trailingBlank '=' (List.mem_of_head? first)) (by decide)
    | cons char rest => exact single first
  · rw [surrounded, split]
    simp

/-- A header that is surrounded by blanks is surrounded by fewer of them after trimming. -/
theorem isRangeVariable_trim_iff :
    IsRangeVariable name (trim text) ↔ IsRangeVariable name text := by
  constructor
  · rintro ⟨front, back, opens, split⟩
    obtain ⟨lead, trailing, leadBlank, _, surrounded⟩ := exists_surrounded_trim text
    refine ⟨lead ++ front, back ++ trailing, opensWord_getLast?_append leadBlank opens, ?_⟩
    rw [surrounded, split]
    simp
  · rintro ⟨front, back, opens, rfl⟩
    obtain ⟨lead, leadBlank, splitFront⟩ := exists_append_skipBlanks front
    obtain ⟨trailing, trailingBlank, splitBack⟩ := exists_trimEnd_append back
    have starts : StartsSolid (skipBlanks front ++ (rangeOpening name ++ trimEnd back)) := by
      cases visible : skipBlanks front with
      | nil => exact startsSolid_cons (by decide)
      | cons char others =>
          exact startsSolid_cons (startsSolid_skipBlanks front char (by rw [visible]; rfl))
    have ends : EndsSolid (skipBlanks front ++ (rangeOpening name ++ trimEnd back)) := by
      cases visible : trimEnd back with
      | nil =>
          have last : EndsSolid " in range(".toList := endsSolid_of_getLast? rfl (by decide)
          have opening : EndsSolid (rangeOpening name) := (last.append (by decide)).append (by simp)
          rw [List.append_nil]
          exact opening.append (by simp [rangeOpening])
      | cons char others =>
          rw [← visible, ← List.append_assoc]
          exact (endsSolid_trimEnd back).append (by simp [visible])
    have trimmed := trim_surrounded leadBlank trailingBlank starts ends
    have whole : front ++ (rangeOpening name ++ back) =
        lead ++ (skipBlanks front ++ (rangeOpening name ++ trimEnd back)) ++ trailing := by
      nth_rewrite 1 [splitFront]
      nth_rewrite 1 [splitBack]
      simp
    rw [whole, trimmed]
    refine ⟨skipBlanks front, trimEnd back, ?_, rfl⟩
    rw [splitFront] at opens
    cases visible : skipBlanks front with
    | nil => rfl
    | cons char others =>
        rwa [visible, List.getLast?_append_of_ne_nil _ (List.cons_ne_nil char others)] at opens

end Trimmed

/-! ## Renamed texts -/

section Renamed

variable {names : List Text} {text phrase back : Text}

/-- A word at the front of the new text is what has become of the first word of the old one. -/
theorem exists_of_mapWords_eq_word_append {image : Text → Text} {word : Text}
    (keeps : ∀ word, IsWord word → IsWord (image word)) (isWord : IsWord word)
    (closes : closesWord back = true) (mapped : mapWords image text = word ++ back) :
    ∃ origin behind, text = origin ++ behind ∧ closesWord behind = true ∧ word = image origin ∧
      back = mapWords image behind := by
  rcases word_cases text with rfl | ⟨char, source, outside, rfl⟩ |
    ⟨origin, behind, isOrigin, closesOrigin, rfl⟩
  · have empty : word = [] := by simp_all
    exact absurd empty isWord.nonempty
  · obtain ⟨first, others, rfl⟩ := List.exists_cons_of_ne_nil isWord.nonempty
    have inside := isWord.inside first List.mem_cons_self
    rw [mapWords_cons_of_outside image outside, List.cons_append, List.cons.injEq] at mapped
    simp [← mapped.1, outside] at inside
  · have closesImage := closesWord_mapWords image closesOrigin
    rw [mapWords_append_of_isWord image isOrigin closesOrigin] at mapped
    have first := isWord.takeWhile_append closes
    have rest := isWord.dropWhile_append closes
    rw [← mapped, (keeps origin isOrigin).takeWhile_append closesImage] at first
    rw [← mapped, (keeps origin isOrigin).dropWhile_append closesImage] at rest
    exact ⟨origin, behind, rfl, closesOrigin, first.symm, rest.symm⟩

/-- A word without the ending of new names was there before. -/
theorem eq_of_renamedAmong {origin word : Text} (stale : ¬freshEnding.toList <:+: word)
    (renamed : word = renamedAmong names origin) : origin = word ∧ word ∉ names := by
  rw [renamedAmong] at renamed
  split at renamed
  · rw [renamed] at stale
    exact absurd (List.suffix_append origin freshEnding.toList).isInfix stale
  · next kept =>
      rw [renamed]
      exact ⟨rfl, fun member => kept (List.contains_iff_mem.2 member)⟩

/-- A phrase without the ending of new names was there before. -/
theorem exists_of_mapWords_renamedAmong (stale : ¬freshEnding.toList <:+: phrase)
    (closes : closesWord back = true)
    (mapped : mapWords (renamedAmong names) text = phrase ++ back) :
    ∃ behind, text = phrase ++ behind ∧ back = mapWords (renamedAmong names) behind := by
  induction phrase using word_induction generalizing text with
  | nil => exact ⟨text, rfl, mapped.symm⟩
  | outside char rest outside ih =>
      obtain ⟨source, rfl, tail⟩ :=
        exists_of_mapWords_eq_cons (isWord_renamedAmong names) outside mapped
      obtain ⟨behind, rfl, same⟩ := ih (fun inRest => stale (List.infix_cons inRest)) tail.symm
      exact ⟨behind, rfl, same⟩
  | word word rest isWord closesRest ih =>
      have closesBehind : closesWord (rest ++ back) = true := by
        cases rest with
        | nil => exact closes
        | cons char rest => exact closesWord_cons (closesWord_iff.1 closesRest char rfl)
      rw [List.append_assoc] at mapped
      obtain ⟨origin, behind, rfl, _, renamed, tail⟩ :=
        exists_of_mapWords_eq_word_append (isWord_renamedAmong names) isWord closesBehind mapped
      have staleWord : ¬freshEnding.toList <:+: word := fun inWord =>
        stale (inWord.trans (List.prefix_append word rest).isInfix)
      have staleRest : ¬freshEnding.toList <:+: rest := fun inRest =>
        stale (inRest.trans (List.suffix_append word rest).isInfix)
      obtain ⟨behind, rfl, same⟩ := ih staleRest tail.symm
      rw [(eq_of_renamedAmong staleWord renamed).1]
      exact ⟨behind, (List.append_assoc word rest behind).symm, same⟩

/-- Words are replaced on both sides of a place where a word can start. -/
theorem mapWords_append_of_opensWord (image : Text → Text) {front : Text}
    (opens : opensWord front.getLast? = true) (text : Text) :
    mapWords image (front ++ text) = mapWords image front ++ mapWords image text ∧
      opensWord (mapWords image front).getLast? = true := by
  rcases List.eq_nil_or_concat front with rfl | ⟨others, last, rfl⟩
  · rw [mapWords_nil]
    exact ⟨rfl, rfl⟩
  · have outside : isWordChar last = false := by simpa [opensWord] using opens
    rw [List.concat_eq_append, List.append_assoc, List.singleton_append,
      mapWords_append_cons image outside, mapWords_append_cons image outside, mapWords_nil]
    refine ⟨by simp, ?_⟩
    simp [opensWord, outside]

/-- The start of a header stays if none of its words is renamed. -/
theorem mapWords_rangeOpening {name : Text} (isName : IsWord name) (kept : name ∉ names)
    (builtin : names ⊆ builtinNames.map String.toList) :
    mapWords (renamedAmong names) (rangeOpening name ++ back) =
      rangeOpening name ++ mapWords (renamedAmong names) back := by
  have fixed : ∀ word rest, IsWord word → word ∉ names → closesWord rest = true →
      mapWords (renamedAmong names) (word ++ rest) =
        word ++ mapWords (renamedAmong names) rest := by
    intro word rest isWord unnamed closes
    rw [mapWords_append_of_isWord _ isWord closes, renamedAmong,
      if_neg fun member => unnamed (List.contains_iff_mem.1 member)]
  have keywords : ∀ word ∈ ["for".toList, "in".toList, "range".toList],
      (word ≠ [] ∧ ∀ char ∈ word, isWordChar char = true) ∧
        word ∉ builtinNames.map String.toList := by decide
  have keyword : ∀ word ∈ ["for".toList, "in".toList, "range".toList], ∀ rest,
      closesWord rest = true → mapWords (renamedAmong names) (word ++ rest) =
        word ++ mapWords (renamedAmong names) rest := by
    intro word member rest
    have facts := keywords word member
    exact fixed word rest ⟨facts.1.1, facts.1.2⟩ fun inNames => facts.2 (builtin inNames)
  have spelled : ∀ behind, rangeOpening name ++ behind = "for".toList ++ (' ' :: (name ++ (' ' ::
      ("in".toList ++ (' ' :: ("range".toList ++ ('(' :: behind))))))) := by
    intro behind
    simp [rangeOpening]
  have space : isWordChar ' ' = false := by decide
  rw [spelled, spelled, keyword _ (by simp) _ rfl, mapWords_cons_of_outside _ space,
    fixed _ _ isName kept rfl, mapWords_cons_of_outside _ space, keyword _ (by simp) _ rfl,
    mapWords_cons_of_outside _ space, keyword _ (by simp) _ rfl,
    mapWords_cons_of_outside _ (by decide)]

end Renamed

section Names

variable {name text : Text} (builtin : name ∈ builtinNames.map String.toList)
include builtin

theorem not_isAssigned_convertNames : ¬IsAssigned name (convertNames text).text := by
  intro assigned
  have hidden := (mem_hiddenBuiltins_iff _).2 ⟨builtin, assigned⟩
  rw [hiddenBuiltins_convertNames] at hidden
  cases hidden

/-- A loop over a range keeps its variable exactly if nothing is assigned to it. -/
theorem isRangeVariable_convertNames_iff :
    IsRangeVariable name (convertNames text).text ↔
      IsRangeVariable name text ∧ ¬IsAssigned name text := by
  have isName := isWord_of_mem_builtinNames builtin
  have hiddenIff : name ∈ hiddenBuiltins text ↔ IsAssigned name text := by
    rw [mem_hiddenBuiltins_iff]
    exact and_iff_right builtin
  rw [← hiddenIff]
  constructor
  · rintro ⟨front, back, opens, split⟩
    have keyword : IsWord "for".toList := ⟨by decide, by decide⟩
    -- The name is a word of the new text, so it is not renamed.
    have between : WordBetween (front ++ "for ".toList) name (" in range(".toList ++ back) := by
      refine ⟨isName, ?_, rfl⟩
      rw [List.getLast?_append_of_ne_nil _ (by decide)]
      rfl
    have named : (convertNames text).text =
        (front ++ "for ".toList) ++ (name ++ (" in range(".toList ++ back)) := by
      rw [split, rangeOpening]
      simp
    have kept := (exists_of_wordBetween_convertNames text builtin between named).1
    -- The words around it come from the same words of the old text.
    rw [opensWord_getLast?] at opens
    have atFor : mapWords (renamedAmong (hiddenBuiltins text)) text =
        front ++ ("for".toList ++ ((' ' :: (name ++ " in range".toList)) ++ '(' :: back)) := by
      rw [← convertNames_eq_mapWords, split, rangeOpening]
      simp
    obtain ⟨source, origin, behind, _, opensSource, _, whole, isFor, rest⟩ :=
      exists_of_wordBetween_mapWords (isWord_renamedAmong _) keyword opens rfl atFor
    have stale : ∀ name ∈ builtinNames.map String.toList,
        ¬freshEnding.toList <:+: ' ' :: (name ++ " in range".toList) := by decide
    obtain ⟨behindRange, rfl, same⟩ :=
      exists_of_mapWords_renamedAmong (stale name builtin) rfl rest.symm
    obtain ⟨left, rfl, _⟩ :=
      exists_of_mapWords_eq_cons (isWord_renamedAmong _) (by decide) same.symm
    rw [(eq_of_renamedAmong (by decide) isFor).1] at whole
    refine ⟨⟨source, left, ?_, ?_⟩, kept⟩
    · rw [opensWord_getLast?]
      exact opensSource
    · rw [whole, rangeOpening]
      simp
  · rintro ⟨⟨front, back, opens, rfl⟩, kept⟩
    rw [convertNames_eq_mapWords]
    obtain ⟨apart, opensImage⟩ := mapWords_append_of_opensWord
      (renamedAmong (hiddenBuiltins (front ++ (rangeOpening name ++ back)))) opens
      (rangeOpening name ++ back)
    rw [apart, mapWords_rangeOpening isName kept (hiddenBuiltins_subset _)]
    exact ⟨_, _, opensImage, rfl⟩

end Names

/-- The text of a snippet in front of the naming pass. -/
def unnamed (snippet : String) : Text :=
  (convertLayout (respelled snippet.toList)).text

theorem toList_toPython (snippet : String) :
    (toPython snippet).toList = trim (convertNames (unnamed snippet)).text := by
  rw [toPython, String.toList_ofList, Rendition.text_ofSnippet, unnamed]

/-- Nothing is assigned to a built-in name in Python. The variable of a loop over a range has a
built-in name exactly if it has it in front of the naming pass and nothing is assigned to the name
there. If something is assigned to it, the name is not left as a word. -/
theorem toPython_boundNames (snippet : String) {name : Text}
    (builtin : name ∈ builtinNames.map String.toList) :
    ¬IsAssigned name (toPython snippet).toList ∧
      (IsRangeVariable name (toPython snippet).toList ↔
        IsRangeVariable name (unnamed snippet) ∧ ¬IsAssigned name (unnamed snippet)) ∧
      (IsAssigned name (unnamed snippet) → ¬HasWord name (toPython snippet).toList) := by
  rw [toList_toPython]
  refine ⟨?_, ?_, ?_⟩
  · intro assigned
    exact not_isAssigned_convertNames builtin assigned.of_trim
  · rw [isRangeVariable_trim_iff, isRangeVariable_convertNames_iff builtin]
  · intro assigned has
    obtain ⟨front, back, between, split⟩ := has.of_trim
    have kept := (exists_of_wordBetween_convertNames _ builtin between split).1
    exact kept ((mem_hiddenBuiltins_iff _).2 ⟨builtin, assigned⟩)

/-- A loop over `sum` in which `max` is assigned to. -/
def sumLoop : String :=
  "for (int sum = 0; sum < 3; sum++) \x7b\nint max = sum;\n\x7d"

theorem toPython_boundNames_sumLoop :
    "max".toList ∈ builtinNames.map String.toList ∧
      IsAssigned "max".toList (unnamed sumLoop) ∧
      ¬IsAssigned "max".toList (toPython sumLoop).toList ∧
      ¬HasWord "max".toList (toPython sumLoop).toList ∧
      IsRangeVariable "sum".toList (toPython sumLoop).toList := by
  have builtin : "max".toList ∈ builtinNames.map String.toList := by decide
  have loopBuiltin : "sum".toList ∈ builtinNames.map String.toList := by decide
  have assigned : IsAssigned "max".toList (unnamed sumLoop) := by
    have hidden : "max".toList ∈ hiddenBuiltins (unnamed sumLoop) := by decide +kernel
    exact ((mem_hiddenBuiltins_iff _).1 hidden).2
  have loops : IsRangeVariable "sum".toList (unnamed sumLoop) := by
    have text : unnamed sumLoop = "for sum in range(0, 3):\n    max = sum".toList := by
      decide +kernel
    rw [text]
    exact ⟨[], "0, 3):\n    max = sum".toList, rfl, rfl⟩
  have loopUnassigned : ¬IsAssigned "sum".toList (unnamed sumLoop) := by
    intro loopAssigned
    have hidden := (mem_hiddenBuiltins_iff _).2 ⟨loopBuiltin, loopAssigned⟩
    revert hidden
    decide +kernel
  obtain ⟨unassigned, _, gone⟩ := toPython_boundNames sumLoop builtin
  obtain ⟨_, kept, _⟩ := toPython_boundNames sumLoop loopBuiltin
  exact ⟨builtin, assigned, unassigned, gone assigned, kept.2 ⟨loops, loopUnassigned⟩⟩

/-- The variable of the loop hides the built-in. -/
theorem toPython_boundNames_sum :
    "sum".toList ∈ builtinNames.map String.toList ∧
      toPython "for (int sum = 0; sum < 3; sum++) \x7b\n\x7d" = "for sum in range(0, 3):" ∧
      IsRangeVariable "sum".toList
        (toPython "for (int sum = 0; sum < 3; sum++) \x7b\n\x7d").toList := by
  have output : toPython "for (int sum = 0; sum < 3; sum++) \x7b\n\x7d" =
      "for sum in range(0, 3):" := by
    decide +kernel
  refine ⟨by decide, output, ?_⟩
  rw [output]
  exact ⟨[], "0, 3):".toList, rfl, rfl⟩

end Offside
