import Offside.Naming
import Offside.Proofs.Text.Spans
import Offside.Proofs.Text.Splicing
import Offside.Proofs.Text.Token

/-!
# Renaming word by word

Renaming a variable replaces the words that are its name and leaves everything else as it is.
Since only words are touched, renaming can be read on each line by itself.
-/

namespace Offside

/-- Put another text in the place of every word of a text. -/
def mapWords (image : Text → Text) : Text → Text
  | [] => []
  | char :: rest =>
      if isWordChar char then
        image ((char :: rest).takeWhile isWordChar) ++
          mapWords image ((char :: rest).dropWhile isWordChar)
      else
        char :: mapWords image rest
termination_by text => text.length
decreasing_by
  · next inside =>
      have shorter := (List.dropWhile_suffix isWordChar (l := rest)).length_le
      simp only [List.dropWhile_cons_of_pos inside, List.length_cons]
      omega
  · simp

@[simp] theorem mapWords_nil (image : Text → Text) : mapWords image [] = [] := by
  rw [mapWords]

theorem mapWords_cons_of_outside (image : Text → Text) {char : Char}
    (outside : isWordChar char = false) (rest : Text) :
    mapWords image (char :: rest) = char :: mapWords image rest := by
  rw [mapWords, if_neg (by simp [outside])]

theorem mapWords_append_of_blank (image : Text → Text) {blanks : Text} (blank : AllBlank blanks)
    (text : Text) : mapWords image (blanks ++ text) = blanks ++ mapWords image text := by
  induction blanks with
  | nil => rfl
  | cons char blanks ih =>
      have outside := isWordChar_of_isBlank (blank char List.mem_cons_self)
      rw [List.cons_append, mapWords_cons_of_outside image outside,
        ih fun other member => blank other (List.mem_cons_of_mem char member), List.cons_append]

theorem mapWords_append_of_isWord (image : Text → Text) {word rest : Text}
    (isWord : IsWord word) (closes : closesWord rest = true) :
    mapWords image (word ++ rest) = image word ++ mapWords image rest := by
  cases word with
  | nil => exact absurd rfl isWord.nonempty
  | cons char word =>
      have taken := isWord.takeWhile_append closes
      have dropped := isWord.dropWhile_append closes
      rw [List.cons_append] at taken dropped ⊢
      rw [mapWords, if_pos (isWord.inside char List.mem_cons_self), taken, dropped]

/-- A text is empty, or starts with a character outside words, or starts with a word. -/
theorem word_cases (text : Text) :
    text = [] ∨ (∃ char rest, isWordChar char = false ∧ text = char :: rest) ∨
      ∃ word rest, IsWord word ∧ closesWord rest = true ∧ text = word ++ rest := by
  cases text with
  | nil => exact .inl rfl
  | cons char rest =>
      cases inside : isWordChar char with
      | false => exact .inr (.inl ⟨char, rest, inside, rfl⟩)
      | true =>
          refine .inr (.inr ⟨(char :: rest).takeWhile isWordChar,
            (char :: rest).dropWhile isWordChar, ⟨?_, ?_⟩, closesWord_dropWhile _, ?_⟩)
          · simp [inside]
          · exact List.all_eq_true.1 List.all_takeWhile
          · exact List.takeWhile_append_dropWhile.symm

/-- Induction along the words of a text. -/
theorem word_induction {motive : Text → Prop} (nil : motive [])
    (outside : ∀ char rest, isWordChar char = false → motive rest → motive (char :: rest))
    (word : ∀ word rest, IsWord word → closesWord rest = true → motive rest →
      motive (word ++ rest)) (text : Text) : motive text := by
  rcases word_cases text with split | ⟨char, rest, isOutside, split⟩ |
    ⟨run, rest, isWord, closes, split⟩
  · rw [split]
    exact nil
  · rw [split]
    exact outside char rest isOutside (word_induction nil outside word rest)
  · rw [split]
    exact word run rest isWord closes (word_induction nil outside word rest)
termination_by text.length
decreasing_by
  · simp [split]
  · have taken := List.length_pos_iff.2 isWord.nonempty
    rw [split, List.length_append]
    omega

/-- Words do not reach across a character outside words. -/
theorem mapWords_append_cons (image : Text → Text) {char : Char}
    (outside : isWordChar char = false) (left right : Text) :
    mapWords image (left ++ char :: right) =
      mapWords image left ++ char :: mapWords image right := by
  induction left using word_induction with
  | nil => rw [List.nil_append, mapWords_cons_of_outside image outside, mapWords_nil]; rfl
  | outside other left isOutside ih =>
      rw [List.cons_append, mapWords_cons_of_outside image isOutside, ih,
        mapWords_cons_of_outside image isOutside]
      rfl
  | word word left isWord closes ih =>
      have closesBoth : closesWord (left ++ char :: right) = true := by
        cases left with
        | nil => exact closesWord_cons outside
        | cons first left => exact closes
      rw [List.append_assoc, mapWords_append_of_isWord image isWord closesBoth, ih,
        mapWords_append_of_isWord image isWord closes, List.append_assoc]

/-- Words do not reach across lines. -/
theorem mapWords_unlines (image : Text → Text) (texts : List Text) :
    mapWords image (unlines texts) = unlines (texts.map (mapWords image)) := by
  induction texts with
  | nil => exact mapWords_nil image
  | cons text rest ih =>
      cases rest with
      | nil => rfl
      | cons next others =>
          rw [unlines_cons_cons, mapWords_append_cons image (by decide), ih]
          simp

/-! ## Renaming -/

/-- What becomes of a word when a variable is renamed. -/
def renamedWord (name word : Text) : Text :=
  if word = name then freshName name else word

theorem Recognizer.wholeWord_at? (word : Text) (before : Option Char) (here : Text) :
    (wholeWord word).at? before here =
      if opensWord before then
        (expect? word here).bind fun rest => if closesWord rest then some ((), rest) else none
      else none := by
  have stepwise : (wholeWord word).at? before here =
      Option.bind (guard (opensWord before)) fun _ =>
      (expect? word here).bind fun rest =>
      Option.bind (guard (closesWord rest)) fun _ => some ((), rest) := rfl
  have closing : ∀ rest : Text, (Option.bind (guard (closesWord rest)) fun _ => some ((), rest)) =
      if closesWord rest then some ((), rest) else none := by
    intro rest
    by_cases closes : closesWord rest = true
    · rw [guard_of_true closes, if_pos closes]
      rfl
    · rw [guard_of_false closes, if_neg closes]
      rfl
  rw [stepwise, funext closing]
  by_cases opens : opensWord before = true
  · rw [guard_of_true opens, if_pos opens]
    rfl
  · rw [guard_of_false opens, if_neg opens]
    rfl

section Rename

variable {name : Text}

theorem wholeWord_proper (isName : IsWord name) : (Recognizer.wholeWord name).Proper := by
  intro before text value rest found
  rw [Recognizer.wholeWord_at?] at found
  split at found
  · cases behind : expect? name text with
    | none => simp [behind] at found
    | some other =>
        rw [behind, Option.bind_some] at found
        split at found
        · cases found
          exact ⟨name, isName.nonempty, expect?_eq_some.1 behind⟩
        · cases found
  · cases found

/-- Nothing is found inside a word, behind its first character. -/
theorem wholeWord_settles_inside {judge : Unit → Verdict} {previous : Char}
    (previousInside : isWordChar previous = true) {word : Text}
    (inside : ∀ char ∈ word, isWordChar char = true) (rest : Text) :
    (Recognizer.wholeWord name).Settles judge rest (some previous) word word := by
  induction word generalizing previous with
  | nil => exact .nil
  | cons char word ih =>
      refine .gap ?_ ?_
      · rw [Recognizer.wholeWord_at?, if_neg (by simp [opensWord, previousInside])]
      · exact ih (inside char List.mem_cons_self)
          fun other member => inside other (List.mem_cons_of_mem _ member)

/-- A word other than the name stays. -/
theorem wholeWord_settles_other {judge : Unit → Verdict} {word rest : Text}
    (isName : IsWord name) (isWord : IsWord word) (closes : closesWord rest = true)
    (other : word ≠ name) (before : Option Char) :
    (Recognizer.wholeWord name).Settles judge rest before word word := by
  cases word with
  | nil => exact .nil
  | cons char word =>
      refine .gap ?_ ?_
      · rw [Recognizer.wholeWord_at?]
        split
        · cases behind : expect? name (char :: (word ++ rest)) with
          | none => rfl
          | some found =>
              rw [Option.bind_some, if_neg]
              intro closesFound
              -- Both texts are the first word of what stands here.
              have split := expect?_eq_some.1 behind
              have first := isWord.takeWhile_append closes
              rw [List.cons_append, split, isName.takeWhile_append closesFound] at first
              exact other first.symm
        · rfl
      · exact wholeWord_settles_inside (isWord.inside char List.mem_cons_self)
          (fun other member => isWord.inside other (List.mem_cons_of_mem _ member)) rest

theorem wholeWord_settles_name {rest replacement : Text} (isName : IsWord name)
    (closes : closesWord rest = true) {before : Option Char} (opens : opensWord before = true) :
    (Recognizer.wholeWord name).Settles (fun _ => .replace replacement) rest before name
      replacement := by
  have found : (Recognizer.wholeWord name).at? before (name ++ rest) = some ((), rest) := by
    rw [Recognizer.wholeWord_at?, if_pos opens, expect?_append, Option.bind_some,
      if_pos closes]
  exact .cons_hit isName.nonempty found rfl

/-- A word does not start at a character that is part of no word. -/
theorem wholeWord_at?_of_outside (isName : IsWord name) {char : Char}
    (outside : isWordChar char = false) (before : Option Char) (rest : Text) :
    (Recognizer.wholeWord name).at? before (char :: rest) = none := by
  rw [Recognizer.wholeWord_at?]
  split
  · cases behind : expect? name (char :: rest) with
    | none => rfl
    | some found =>
        have split := expect?_eq_some.1 behind
        rcases isName with ⟨nonempty, inside⟩
        cases name with
        | nil => exact absurd rfl nonempty
        | cons first name =>
            rw [List.cons_append, List.cons.injEq] at split
            rw [split.1, inside first List.mem_cons_self] at outside
            cases outside
  · rfl

theorem wholeWord_settles (isName : IsWord name) (text : Text) {before : Option Char}
    (opens : ∀ char, text.head? = some char → isWordChar char = true →
      opensWord before = true) :
    (Recognizer.wholeWord name).Settles (fun _ => .replace (freshName name)) [] before text
      (mapWords (renamedWord name) text) := by
  induction text using word_induction generalizing before with
  | nil =>
      rw [mapWords_nil]
      exact .nil
  | outside char rest outside ih =>
      rw [mapWords_cons_of_outside _ outside]
      apply Recognizer.Settles.gap (wholeWord_at?_of_outside isName outside before _)
      exact ih fun _ _ _ => by simp [opensWord, outside]
  | word word rest isWord closes ih =>
      rw [mapWords_append_of_isWord _ isWord closes]
      have opensHere : opensWord before = true := by
        cases word with
        | nil => exact absurd rfl isWord.nonempty
        | cons char word => exact opens char rfl (isWord.inside char List.mem_cons_self)
      have outsideBehind : ∀ char, rest.head? = some char → isWordChar char = true →
          opensWord (passed before word) = true := by
        intro char first inside
        rw [closesWord_iff.1 closes char first] at inside
        cases inside
      refine .append ?_ (ih outsideBehind)
      rw [List.append_nil, renamedWord]
      split
      · next same =>
          subst same
          exact wholeWord_settles_name isName closes opensHere
      · next other => exact wholeWord_settles_other isName isWord closes other before

/-- Renaming replaces the words that are the name, and only them. -/
theorem rename_eq_mapWords (isName : IsWord name) (text : Text) :
    rename text name = mapWords (renamedWord name) text :=
  (wholeWord_settles isName text (by simp [opensWord])).replaceAll (wholeWord_proper isName)

end Rename

theorem isWord_of_mem_builtinNames {name : Text}
    (builtin : name ∈ builtinNames.map String.toList) : IsWord name := by
  constructor
  · revert name
    decide
  · revert name
    decide

end Offside
