import Offside.Proofs.Text.Recognition

/-!
# Pairs of letters

Keywords hold letters next to each other, and short names do not. Which letters stand next to
each other in a text therefore says which keywords cannot occur in it, whatever names and
numbers it is written with.
-/

namespace Offside

/-- The pairs of neighbouring letters of a text, each with the character behind it. -/
def letterPairs : Text → List (Char × Char × Option Char)
  | first :: second :: rest =>
      (if first.isAlpha && second.isAlpha then [(first, second, rest.head?)] else []) ++
        letterPairs (second :: rest)
  | _ => []

theorem letterPairs_cons_cons (first second : Char) (rest : Text) :
    letterPairs (first :: second :: rest) =
      (if first.isAlpha && second.isAlpha then [(first, second, rest.head?)] else []) ++
        letterPairs (second :: rest) := rfl

theorem letterPairs_cons_of_not_isAlpha {char : Char} (noLetter : char.isAlpha = false)
    (rest : Text) : letterPairs (char :: rest) = letterPairs rest := by
  cases rest with
  | nil => rfl
  | cons second rest => simp [letterPairs, noLetter]

/-- Whether a text does not start with a letter. -/
def startsOtherwise (text : Text) : Bool :=
  text.head?.all fun char => !char.isAlpha

/-- Whether a text does not end in a letter. -/
def endsOtherwise (text : Text) : Bool :=
  text.getLast?.all fun char => !char.isAlpha

/-- A letter in front of something else is in no pair. -/
theorem letterPairs_cons_of_startsOtherwise (char : Char) {rest : Text}
    (apart : startsOtherwise rest = true) : letterPairs (char :: rest) = letterPairs rest := by
  cases rest with
  | nil => rfl
  | cons second rest =>
      have noLetter : second.isAlpha = false := by
        simpa [startsOtherwise] using apart
      simp [letterPairs, noLetter]

/-- Texts that do not meet in a letter have the pairs of both. -/
theorem letterPairs_append {left : Text} (apart : endsOtherwise left = true) (right : Text) :
    letterPairs (left ++ right) = letterPairs left ++ letterPairs right := by
  induction left with
  | nil => rfl
  | cons first left ih =>
      cases left with
      | nil =>
          have noLetter : first.isAlpha = false := by
            simpa [endsOtherwise] using apart
          exact letterPairs_cons_of_not_isAlpha noLetter right
      | cons second rest =>
          have tail := ih apart
          rw [List.cons_append] at tail
          rw [List.cons_append, List.cons_append, letterPairs_cons_cons, letterPairs_cons_cons,
            tail, List.append_assoc]
          cases rest with
          | nil =>
              have noLetter : second.isAlpha = false := by
                simpa [endsOtherwise] using apart
              simp [noLetter]
          | cons third rest => rfl

/-! ## Occurrences -/

theorem letterPairs_subset_append (left right : Text) :
    letterPairs right ⊆ letterPairs (left ++ right) := by
  induction left with
  | nil => exact List.Subset.refl _
  | cons first left ih =>
      apply List.Subset.trans ih
      rw [List.cons_append]
      cases left ++ right with
      | nil => exact List.Subset.refl _
      | cons second rest => exact List.subset_append_right _ _

/-- A pair of letters stays when a text is continued. At the end of the text it is then followed
by the continuation. -/
theorem mem_letterPairs_append {first second : Char} {third : Option Char} {left : Text}
    (member : (first, second, third) ∈ letterPairs left) (right : Text) :
    (first, second, third.or right.head?) ∈ letterPairs (left ++ right) := by
  induction left with
  | nil => cases member
  | cons char left ih =>
      cases left with
      | nil => cases member
      | cons next rest =>
          rw [letterPairs_cons_cons, List.mem_append] at member
          rw [List.cons_append, List.cons_append, letterPairs_cons_cons, List.mem_append]
          rcases member with here | there
          · split at here
            · next letters =>
                cases List.mem_singleton.1 here
                rw [if_pos letters, List.head?_append]
                exact .inl List.mem_cons_self
            · cases here
          · exact .inr (ih there)

/-- A pair of letters in a text that is cut at another character stands on one side. On the
left it may be followed by that character. -/
theorem mem_letterPairs_append_cons {first second char : Char} {third : Option Char}
    (noLetter : char.isAlpha = false) {left right : Text}
    (member : (first, second, third) ∈ letterPairs (left ++ char :: right)) :
    (first, second, third) ∈ letterPairs left ∨
      (first, second, none) ∈ letterPairs left ∧ third = some char ∨
      (first, second, third) ∈ letterPairs right := by
  induction left with
  | nil =>
      rw [List.nil_append, letterPairs_cons_of_not_isAlpha noLetter] at member
      exact .inr (.inr member)
  | cons next left ih =>
      cases left with
      | nil =>
          have apart : startsOtherwise (char :: right) = true := by
            simp [startsOtherwise, noLetter]
          rw [List.cons_append, List.nil_append, letterPairs_cons_of_startsOtherwise next apart,
            letterPairs_cons_of_not_isAlpha noLetter] at member
          exact .inr (.inr member)
      | cons other rest =>
          rw [List.cons_append, List.cons_append, letterPairs_cons_cons, List.mem_append] at member
          rw [letterPairs_cons_cons, List.mem_append, List.mem_append]
          rcases member with here | there
          · cases rest with
            | nil =>
                split at here
                · next letters =>
                    cases List.mem_singleton.1 here
                    rw [if_pos letters]
                    exact .inr (.inl ⟨.inl List.mem_cons_self, rfl⟩)
                · cases here
            | cons behind rest => exact .inl (.inl here)
          · rcases ih there with inLeft | ⟨atEnd, followed⟩ | inRight
            · exact .inl (.inr inLeft)
            · exact .inr (.inl ⟨.inr atEnd, followed⟩)
            · exact .inr (.inr inRight)

/-- A pair of letters in joined lines stands on one of them, and may be followed by the end of
the line. -/
theorem exists_mem_letterPairs_of_unlines {first second : Char} {third : Option Char}
    {texts : List Text} (member : (first, second, third) ∈ letterPairs (unlines texts)) :
    ∃ text ∈ texts, (first, second, third) ∈ letterPairs text ∨
      (first, second, none) ∈ letterPairs text ∧ third = some '\n' := by
  induction texts with
  | nil => cases member
  | cons text rest ih =>
      cases rest with
      | nil => exact ⟨text, List.mem_cons_self, .inl member⟩
      | cons next others =>
          rw [unlines_cons_cons] at member
          rcases mem_letterPairs_append_cons (by decide) member with here | atEnd | there
          · exact ⟨text, List.mem_cons_self, .inl here⟩
          · exact ⟨text, List.mem_cons_self, .inr atEnd⟩
          · rcases ih there with ⟨other, otherMember, found⟩
            exact ⟨other, List.mem_cons_of_mem text otherMember, found⟩

/-- Whether two letters stand next to each other somewhere in a text. -/
def hasPair (first second : Char) (text : Text) : Bool :=
  (letterPairs text).any fun pair => pair.1 = first && pair.2.1 = second

theorem hasPair_iff {first second : Char} {text : Text} :
    hasPair first second text = true ↔ ∃ third, (first, second, third) ∈ letterPairs text := by
  rw [hasPair, List.any_eq_true]
  constructor
  · rintro ⟨⟨other, another, third⟩, member, same⟩
    rw [Bool.and_eq_true, decide_eq_true_iff, decide_eq_true_iff] at same
    rcases same with ⟨rfl, rfl⟩
    exact ⟨third, member⟩
  · rintro ⟨third, member⟩
    exact ⟨_, member, by simp⟩

theorem hasPair_unlines {first second : Char} {texts : List Text}
    (absent : ∀ text ∈ texts, hasPair first second text = false) :
    hasPair first second (unlines texts) = false := by
  cases present : hasPair first second (unlines texts) with
  | false => rfl
  | true =>
      rcases hasPair_iff.1 present with ⟨third, member⟩
      rcases exists_mem_letterPairs_of_unlines member with ⟨text, inTexts, here | ⟨atEnd, _⟩⟩
      · exact absurd (hasPair_iff.2 ⟨third, here⟩) (ne_true_of_eq_false (absent text inTexts))
      · exact absurd (hasPair_iff.2 ⟨none, atEnd⟩) (ne_true_of_eq_false (absent text inTexts))

theorem hasPair_of_isInfix {first second : Char} {part text : Text} (occurs : part <:+: text)
    (present : hasPair first second part = true) : hasPair first second text = true := by
  rcases occurs with ⟨front, back, rfl⟩
  rw [List.append_assoc]
  rcases hasPair_iff.1 present with ⟨third, member⟩
  exact hasPair_iff.2 ⟨_, letterPairs_subset_append front _ (mem_letterPairs_append member back)⟩

/-- A text with two neighbouring letters does not occur where the letters are not neighbours. -/
theorem not_isInfix_of_hasPair (first second : Char) {opening text : Text}
    (inside : hasPair first second opening = true)
    (missing : hasPair first second text = false) : ¬opening <:+: text := by
  intro occurs
  rw [hasPair_of_isInfix occurs inside] at missing
  cases missing

end Offside
