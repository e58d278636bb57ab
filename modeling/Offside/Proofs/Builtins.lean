import Offside.Naming
import Offside.Proofs.Text.LetterPairs

/-!
# Texts that hide no built-in

A name is assigned to where an equals sign stands behind it, with blanks between them or not. A
text in which no built-in name occurs in front of a blank or an equals sign is therefore left as
it is. That can be seen from the pairs of letters of the text.
-/

namespace Offside

/-! ## Where a hit stands -/

/-- A value is recognised somewhere in a text. -/
def Recognizer.Finds {α : Type} (recognizer : Recognizer α) (value : α) (text : Text) : Prop :=
  ∃ before here left, here <:+ text ∧ recognizer.at? before here = some (value, left)

section Finds

variable {α : Type} {recognizer : Recognizer α} {value : α} {text : Text}

theorem Recognizer.Finds.cons (finds : recognizer.Finds value text) (char : Char) :
    recognizer.Finds value (char :: text) := by
  rcases finds with ⟨before, here, left, suffix, found⟩
  exact ⟨before, here, left, suffix.trans (List.suffix_cons char text), found⟩

theorem Recognizer.finds_of_hit_mem {stance : Stance} {before : Option Char} {matched : Text}
    (member : .hit matched value ∈ recognizer.piecesFrom stance before text) :
    recognizer.Finds value text := by
  fun_induction piecesFrom recognizer stance before text with
  | case1 before other left found =>
      cases List.mem_singleton.1 member
      exact ⟨before, [], left, List.suffix_rfl, found⟩
  | case2 | case3 => cases member
  | case4 ahead before char rest ih => exact (ih member).cons char
  | case5 stance before char rest _ missing ih =>
      rcases List.mem_cons.1 member with isGap | later
      · cases isGap
      · exact (ih later).cons char
  | case6 stance before char rest _ other left found _ ih =>
      -- An empty hit counts only where the walk is free.
      rcases List.mem_append.1 member with isHere | later
      · split at isHere
        · cases List.mem_singleton.1 isHere
          exact ⟨before, char :: rest, left, List.suffix_rfl, found⟩
        · cases isHere
      · rcases List.mem_cons.1 later with isGap | later
        · cases isGap
        · exact (ih later).cons char
  | case7 stance before char rest _ other left found _ _ ih =>
      rcases List.mem_cons.1 member with isHere | later
      · cases isHere
        exact ⟨before, char :: rest, left, List.suffix_rfl, found⟩
      · exact (ih later).cons char

theorem Recognizer.finds_of_mem_hits {matched : Text}
    (member : (matched, value) ∈ recognizer.hits text) : recognizer.Finds value text := by
  rcases List.mem_filterMap.1 member with ⟨piece, inPieces, isHit⟩
  cases piece with
  | gap char => cases isHit
  | hit _ _ =>
      cases isHit
      exact finds_of_hit_mem inPieces

theorem Recognizer.hits_eq_nil
    (unfound : ∀ before here value left, here <:+ text →
      recognizer.at? before here ≠ some (value, left)) : recognizer.hits text = [] := by
  rw [List.eq_nil_iff_forall_not_mem]
  rintro ⟨matched, value⟩ isHit
  obtain ⟨before, here, left, suffix, found⟩ := finds_of_mem_hits isHit
  exact unfound before here value left suffix found

end Finds

/-! ## Assignments -/

theorem equalsSign_at? (before : Option Char) (text : Text) :
    equalsSign.at? before text =
      Option.bind (guard (opensWord before)) fun _ =>
      Option.bind (guard (text.head?.any isIdentifierStart)) fun _ =>
      (expect? "=".toList (skipBlanks (text.dropWhile isIdentifierChar))).bind fun behind =>
      match expect? "=".toList behind with
      | some rest => some ({ identifier := text.takeWhile isIdentifierChar, doubled := true }, rest)
      | none => some ({ identifier := text.takeWhile isIdentifierChar, doubled := false }, behind) :=
  rfl

theorem equalsSign_at?_eq_some {before : Option Char} {text left : Text} {sign : EqualsSign}
    (found : equalsSign.at? before text = some (sign, left)) :
    ∃ char rest, (isBlank char = true ∨ char = '=') ∧ text = sign.identifier ++ char :: rest := by
  rw [equalsSign_at?] at found
  simp only [Option.bind_eq_some_iff] at found
  rcases found with ⟨_, _, _, _, behind, expected, result⟩
  have identifier : sign.identifier = text.takeWhile isIdentifierChar := by
    split at result <;> cases result <;> rfl
  rw [identifier]
  cases rest : text.dropWhile isIdentifierChar with
  | nil =>
      rw [rest] at expected
      cases expected
  | cons char others =>
      refine ⟨char, others, ?_, by rw [← rest, List.takeWhile_append_dropWhile]⟩
      cases blank : isBlank char with
      | true => exact .inl rfl
      | false =>
          rw [rest, skipBlanks_cons_of_solid blank, expect?_eq_some] at expected
          exact .inr (List.cons.inj expected).1

/-- Behind a name that is assigned to there is a blank or an equals sign. -/
theorem isInfix_of_mem_assignedNames {text name : Text} (member : name ∈ assignedNames text) :
    ∃ char, (isBlank char = true ∨ char = '=') ∧ name ++ [char] <:+: text := by
  rcases List.mem_filterMap.1 member with ⟨⟨matched, sign⟩, isHit, assigned⟩
  rcases Recognizer.finds_of_mem_hits isHit with ⟨before, here, left, suffix, found⟩
  rcases equalsSign_at?_eq_some found with ⟨char, rest, apart, split⟩
  have named : name = sign.identifier := by
    have chosen : (if sign.doubled then none else some sign.identifier) = some name := assigned
    rw [Option.ite_none_left_eq_some] at chosen
    exact (Option.some.inj chosen.2).symm
  refine ⟨char, apart, ?_⟩
  have starts : name ++ [char] <+: here := ⟨rest, by rw [split, named]; simp⟩
  exact starts.isInfix.trans suffix.isInfix

/-! ## Pairs of letters of the built-in names -/

theorem mem_letterPairs_of_isInfix {first second third : Char} {part text : Text}
    (member : (first, second, some third) ∈ letterPairs part) (occurs : part <:+: text) :
    (first, second, some third) ∈ letterPairs text := by
  rcases occurs with ⟨front, back, rfl⟩
  rw [List.append_assoc]
  exact letterPairs_subset_append front _ (mem_letterPairs_append member back)

/-- Pairs of letters, one at least for each built-in name other than `print`. -/
def builtinPairs : List (Char × Char) :=
  [('s', 'u'), ('m', 'i'), ('m', 'a'), ('s', 't'), ('d', 'i'), ('n', 'p'), ('l', 'e')]

theorem exists_builtinPair : ∀ name ∈ builtinNames.map String.toList, name = "print".toList ∨
    ∃ pair ∈ builtinPairs, hasPair pair.1 pair.2 name = true := by decide

/-- Whether none of these pairs stands in a text, and the end of `print` only in a call. -/
def sparesBuiltins (text : Text) : Bool :=
  (letterPairs text).all fun (first, second, third) =>
    !builtinPairs.contains (first, second) &&
      (first != 'n' || second != 't' || third == some '(')

theorem hiddenBuiltins_eq_nil {text : Text} (spares : sparesBuiltins text = true) :
    hiddenBuiltins text = [] := by
  rw [sparesBuiltins, List.all_eq_true] at spares
  rw [hiddenBuiltins, List.filter_eq_nil_iff]
  intro name builtin assigned
  rcases isInfix_of_mem_assignedNames (of_decide_eq_true assigned) with ⟨char, apart, occurs⟩
  -- The letters of `print` do occur, but a call has a parenthesis where an assignment does not.
  rcases exists_builtinPair name builtin with rfl | ⟨⟨first, second⟩, listed, inName⟩
  · have last : ('n', 't', none) ∈ letterPairs "print".toList := by decide
    have followed := spares _
      (mem_letterPairs_of_isInfix (mem_letterPairs_append last [char]) occurs)
    have called : char = '(' := by simpa [builtinPairs] using followed
    rw [called] at apart
    exact absurd apart (by decide)
  · have inText : hasPair first second text = true :=
      hasPair_of_isInfix ((List.prefix_append name [char]).isInfix.trans occurs) inName
    rcases hasPair_iff.1 inText with ⟨third, member⟩
    have unlisted := spares _ member
    simp [listed] at unlisted

theorem convertNames_eq_self {text : Text} (spares : sparesBuiltins text = true) :
    (convertNames text).text = text := by
  rw [convertNames, hiddenBuiltins_eq_nil spares]
  rfl

theorem sparesBuiltins_unlines {texts : List Text}
    (spares : ∀ text ∈ texts, sparesBuiltins text = true) :
    sparesBuiltins (unlines texts) = true := by
  rw [sparesBuiltins, List.all_eq_true]
  rintro ⟨first, second, third⟩ member
  rcases exists_mem_letterPairs_of_unlines member with ⟨text, inTexts, here | ⟨atEnd, followed⟩⟩
  · exact List.all_eq_true.1 (spares text inTexts) _ here
  · have unfollowed := List.all_eq_true.1 (spares text inTexts) _ atEnd
    simpa [followed] using unfollowed

end Offside
