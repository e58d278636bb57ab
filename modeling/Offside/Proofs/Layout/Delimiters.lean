import Offside.Proofs.Layout.Legality
import Offside.Proofs.Spelling
import Offside.Proofs.Text.Pieces
import Offside.Proofs.Text.Quoting

/-!
# No delimiters in the output

Whatever the input, no semicolon and no brace outside a literal is left in the output. The
spelling pass takes the semicolons away and the layout pass the braces. What follows cannot
bring a brace back: blanks and words do not change where a text stands with respect to
literals, so that a brace inside a literal stays inside it.
-/

namespace Offside

/-! ## Braces -/

theorem unbraced_append {start : Quoting} {left right : Text} :
    Unbraced start (left ++ right) ↔ Unbraced start left ∧ Unbraced (start.after left) right := by
  simp only [Unbraced, Quoting.annotate_append, List.mem_append, or_imp, forall_and]

theorem unbraced_of_word {text : Text} (inside : ∀ char ∈ text, isWordChar char = true)
    (start : Quoting) : Unbraced start text :=
  (BraceFree.of_forall (by decide) (by decide) inside).unbraced start

theorem unbraced_of_blank {blanks : Text} (blank : AllBlank blanks) (start : Quoting) :
    Unbraced start blanks :=
  (BraceFree.of_forall (by decide) (by decide) blank).unbraced start

/-- A brace outside the literals leaves the position as it was, so that the others stay where they
were when it is dropped. -/
theorem annotate_without_braces (start : Quoting) (text : Text) :
    start.annotate (((start.annotate text).filter fun marked => !isBareBrace marked).map Prod.fst) =
      (start.annotate text).filter fun marked => !isBareBrace marked := by
  induction text generalizing start with
  | nil => rfl
  | cons char text ih =>
      rw [Quoting.annotate_cons, List.filter_cons]
      cases bare : isBareBrace (char, start) with
      | false => simp [ih]
      | true =>
          have brace : start = .outside ∧ (char = '\x7b' ∨ char = '\x7d') := by
            simpa [isBareBrace] using bare
          have stays : start.next char = start := by
            obtain ⟨rfl, rfl | rfl⟩ := brace <;> rfl
          have tail := ih start
          simpa [stays] using tail

theorem unbraced_dropBraces (text : Text) : Unbraced .outside (dropBraces text) := by
  intro marked member
  rw [dropBraces, annotate_without_braces, List.mem_filter] at member
  simpa using member.2

/-- Blanks around a text have nothing to do with its braces. -/
theorem unbraced_trim {text : Text} : Unbraced .outside (trim text) ↔ Unbraced .outside text := by
  obtain ⟨front, back, frontBlank, backBlank, split⟩ := exists_surrounded_trim text
  constructor
  · intro unbraced
    rw [split, List.append_assoc, unbraced_append, unbraced_append,
      Quoting.after_of_blank frontBlank]
    exact ⟨unbraced_of_blank frontBlank _, unbraced, unbraced_of_blank backBlank _⟩
  · intro unbraced
    rw [split, List.append_assoc, unbraced_append, unbraced_append,
      Quoting.after_of_blank frontBlank] at unbraced
    exact unbraced.2.1

/-! ## Renaming -/

theorem renamedWord_eq_append (name word : Text) :
    ∃ ending, renamedWord name word = word ++ ending ∧
      ∀ char ∈ ending, isWordChar char = true := by
  by_cases same : word = name
  · exact ⟨freshEnding.toList, by rw [renamedWord, if_pos same, same, freshName], by decide⟩
  · exact ⟨[], by rw [renamedWord, if_neg same, List.append_nil], by simp⟩

/-- A longer word leads to the same position. -/
theorem unbraced_mapWords {name text : Text} {start : Quoting} (sound : start.IsSound)
    (unbraced : Unbraced start text) : Unbraced start (mapWords (renamedWord name) text) := by
  induction text using word_induction generalizing start with
  | nil => rwa [mapWords_nil]
  | outside char rest outside ih =>
      rw [mapWords_cons_of_outside _ outside]
      rw [← List.singleton_append, unbraced_append] at unbraced ⊢
      exact ⟨unbraced.1, ih (sound.next char) unbraced.2⟩
  | word word rest isWord closes ih =>
      obtain ⟨ending, renamed, inside⟩ := renamedWord_eq_append name word
      have settled := sound.isSettled_after isWord
      rw [mapWords_append_of_isWord _ isWord closes, renamed, unbraced_append, unbraced_append,
        Quoting.after_append, settled.after_eq inside]
      rw [unbraced_append] at unbraced
      exact ⟨⟨unbraced.1, unbraced_of_word inside _⟩, ih settled.isSound unbraced.2⟩

/-! ## Semicolons -/

/-- A character that is replaced wherever it occurs is gone. -/
theorem notMem_replaceAll_fixed {char : Char} {new : Text} (absent : char ∉ new) (text : Text) :
    char ∉ (Recognizer.fixed [char]).replaceAll (fun _ => new) text := by
  intro member
  obtain ⟨piece, inPieces, inPiece⟩ := List.mem_flatMap.1 member
  cases piece with
  | gap other =>
      rw [Piece.replaced, List.mem_singleton] at inPiece
      subst inPiece
      have proper := Recognizer.fixed_proper (List.cons_ne_nil char [])
      obtain ⟨here, rest, missing⟩ := (proper.cuts none text).exists_of_gap_mem inPieces
      have found : expect? [char] (char :: rest) = some rest := expect?_append [char] rest
      rw [Recognizer.fixed_at?, found] at missing
      cases missing
  | hit matched value => exact absent inPiece

theorem notMem_respellBy {char : Char} {table : List (String × String)}
    (absent : ∀ spelling ∈ table, char ∉ spelling.2.toList) {line : Text} (missing : char ∉ line) :
    char ∉ respellBy table line := by
  induction table generalizing line with
  | nil => exact missing
  | cons spelling table ih =>
      apply ih (fun other member => absent other (List.mem_cons_of_mem spelling member))
      intro member
      rcases Recognizer.mem_of_mem_replaceAll member with inLine | ⟨_, inNew⟩
      · exact missing inLine
      · exact absent spelling List.mem_cons_self inNew

theorem semicolon_notMem_respell (line : Text) : ';' ∉ respell line := by
  have table : spellings = spellings.take 6 ++ ([(";", "")] ++ spellings.drop 7) := rfl
  rw [respell_eq, table, respellBy_append, respellBy_append]
  generalize respellBy (spellings.take 6) line = front
  have gone : ';' ∉ respellBy [(";", "")] front :=
    notMem_replaceAll_fixed (by decide) front
  exact notMem_respellBy (by decide) gone

/-- The parts between commas are made of the text that is cut. -/
theorem mem_of_mem_splitCommas {text part : Text} {char : Char} (cutOff : part ∈ splitCommas text)
    (member : char ∈ part) : char ∈ text := by
  induction text using comma_induction with
  | part text isPart =>
      rw [isPart.splitCommas_eq, List.mem_singleton] at cutOff
      rwa [← cutOff]
  | cut front back isPart closed ih =>
      rw [isPart.splitCommas_append_comma closed, List.mem_cons] at cutOff
      rcases cutOff with rfl | later
      · exact List.mem_append_left _ member
      · exact List.mem_append_right _ (List.mem_cons_of_mem ',' (ih later))

theorem mem_of_mem_assignment {indent declarator : Text} {char : Char}
    (member : char ∈ assignment indent declarator) :
    char ∈ indent ∨ char ∈ declarator ∨ char ∈ " = None".toList := by
  rw [assignment] at member
  split at member
  · rw [List.mem_append] at member
    exact member.imp_right .inl
  · rw [List.append_assoc, List.mem_append, List.mem_append] at member
    exact or_assoc.1 member

theorem mem_of_mem_assignments {indent declarators : Text} {char : Char}
    (member : char ∈ assignments indent declarators) :
    char ∈ indent ∨ char ∈ declarators ∨ char ∈ "\n = None".toList := by
  rcases mem_of_mem_joinWith member with newline | ⟨text, inTexts, inText⟩
  · exact .inr (.inr (List.mem_cons.2 (.inl (List.mem_singleton.1 newline))))
  · obtain ⟨declarator, inParts, rfl⟩ := List.mem_map.1 inTexts
    obtain ⟨part, isPart, rfl⟩ := List.mem_map.1 (List.mem_filter.1 inParts).1
    rcases mem_of_mem_assignment inText with inIndent | inPart | inNone
    · exact .inl inIndent
    · exact .inr (.inl (mem_of_mem_splitCommas isPart (mem_of_mem_trim inPart)))
    · exact .inr (.inr (List.mem_cons_of_mem _ inNone))

/-- A declaration becomes assignments that are made of its line. -/
theorem mem_of_mem_respellDeclaration {line : Text} {char : Char}
    (member : char ∈ respellDeclaration line) : char ∈ line ∨ char ∈ "\n = None".toList := by
  rw [respellDeclaration] at member
  cases read : Declaration.ofLine? line with
  | none =>
      rw [read] at member
      exact .inl member
  | some declaration =>
      rw [read] at member
      rw [Declaration.ofLine?_eq] at read
      obtain ⟨behind, behindFound, guarded⟩ := Option.bind_eq_some_iff.1 read
      obtain ⟨_, _, result⟩ := Option.bind_eq_some_iff.1 guarded
      cases result
      have inLine : ∀ other ∈ behind, other ∈ line := fun other inBehind =>
        ((behindType?_suffix behindFound).trans ((skipModifier_suffix _ _).trans
          (List.dropWhile_suffix isTabOrSpace))).subset inBehind
      rcases mem_of_mem_assignments member with inIndent | inDeclarators | inNone
      · exact .inl ((List.takeWhile_prefix isTabOrSpace).subset inIndent)
      · obtain ⟨blanks, _, split⟩ := exists_trimEnd_append (behind.dropWhile isTabOrSpace)
        have inDropped : char ∈ behind.dropWhile isTabOrSpace := by
          rw [split]
          exact List.mem_append_left blanks inDeclarators
        exact .inl (inLine char ((List.dropWhile_suffix isTabOrSpace).subset inDropped))
      · exact .inr inNone

theorem semicolon_notMem_respellLine (line : Text) : ';' ∉ respellLine line := by
  rw [respellLine_eq]
  intro member
  rcases mem_of_mem_respellDeclaration member with inLine | inNone
  · have inRespelled :=
      ((withoutMain_suffix _).trans (withoutClass_suffix (respell line))).subset inLine
    exact semicolon_notMem_respell line inRespelled
  · exact absurd inNone (by decide)

theorem semicolon_notMem_convertSpelling (text : Text) : ';' ∉ convertSpelling text := by
  intro member
  rcases mem_of_mem_joinWith member with newline | ⟨line, inLines, inLine⟩
  · revert newline
    decide
  · obtain ⟨source, _, rfl⟩ := List.mem_map.1 inLines
    exact semicolon_notMem_respellLine source inLine

/-! ## The layout pass -/

theorem unbraced_atDepth {depth : Nat} {body : Text} :
    Unbraced .outside (atDepth depth body) ↔ Unbraced .outside body := by
  rw [← unbraced_trim, atDepth, trim_append_left (allBlank_replicate_space _), unbraced_trim]

/-- A line is set without the braces outside its literals. -/
theorem Margin.unbraced_of_set? {margin : Margin} {text setText : Text}
    (set : margin.set? (.ofLine text) = some setText) : Unbraced .outside setText := by
  rw [LineShape.ofLine_eq] at set
  split at set
  · cases set
    exact unbraced_of_blank allBlank_nil _
  split at set
  · cases set
  split at set
  · cases set
    exact unbraced_of_blank allBlank_nil _
  · obtain ⟨depth, _, filled, _⟩ :=
      margin.set?_ofBody (trim (dropBraces (trim text))) (openBraces (trim text))
    rw [filled, Option.some.injEq] at set
    rw [← set, unbraced_atDepth, unbraced_trim]
    exact unbraced_dropBraces _

/-! ## The output -/

/-- A text without semicolons, and without braces outside the literals of its lines. -/
structure Undelimited (text : Text) : Prop where
  semicolon : ';' ∉ text
  unbraced : ∀ line ∈ lines text, Unbraced .outside line

theorem undelimited_nil : Undelimited [] where
  semicolon := by simp
  unbraced := by
    intro line member
    rw [List.mem_singleton.1 member]
    exact unbraced_of_blank allBlank_nil _

theorem undelimited_convertLayout {text : Text} (semicolon : ';' ∉ text) :
    Undelimited (convertLayout text).text := by
  rw [convertLayout]
  have single := newline_notMem_layout_lines text
  by_cases empty : (Layout.ofLines (lines text)).lines = []
  · rw [empty]
    exact undelimited_nil
  constructor
  · intro member
    rcases mem_of_mem_joinWith member with newline | ⟨setText, inLayout, inLine⟩
    · exact absurd newline (by decide)
    · obtain ⟨line, inLines, here, set⟩ := Layout.exists_set?_of_mem inLayout
      rcases Margin.mem_of_set? set inLine with space | inText
      · exact absurd space (by decide)
      · exact semicolon ((isInfix_of_mem_lines inLines).subset inText)
  · intro setText inLayout
    rw [lines_unlines empty single] at inLayout
    obtain ⟨line, _, here, set⟩ := Layout.exists_set?_of_mem inLayout
    exact Margin.unbraced_of_set? set

theorem semicolon_notMem_freshName :
    ∀ name ∈ builtinNames.map String.toList, ';' ∉ freshName name := by decide

theorem Undelimited.rename {text name : Text} (builtin : name ∈ builtinNames.map String.toList)
    (undelimited : Undelimited text) : Undelimited (rename text name) where
  semicolon := by
    intro member
    rcases Recognizer.mem_of_mem_replaceAll member with inText | ⟨_, inName⟩
    · exact undelimited.semicolon inText
    · exact semicolon_notMem_freshName name builtin inName
  unbraced := by
    intro line member
    rw [lines_rename builtin] at member
    obtain ⟨source, inLines, rfl⟩ := List.mem_map.1 member
    exact unbraced_mapWords trivial (undelimited.unbraced source inLines)

theorem Undelimited.convertNames {text : Text} (undelimited : Undelimited text) :
    Undelimited (convertNames text).text :=
  convertNames_induction undelimited fun _ _ builtin here => here.rename builtin

theorem Undelimited.trim {text : Text} (undelimited : Undelimited text) :
    Undelimited (trim text) where
  semicolon := fun member => undelimited.semicolon (mem_of_mem_trim member)
  unbraced := by
    intro line member
    obtain ⟨front, core, back, split, _, _, trimmed⟩ := exists_lines_trim text
    -- Up to blanks, the line was there before.
    have inCore : Offside.trim line ∈ core.map Offside.trim := by
      rw [trimmed]
      exact List.mem_map_of_mem member
    obtain ⟨source, isLine, same⟩ := List.mem_map.1 inCore
    have inText : source ∈ lines text := by
      rw [split]
      exact List.mem_append_left back (List.mem_append_right front isLine)
    rw [← unbraced_trim, ← same, unbraced_trim]
    exact undelimited.unbraced source inText

/-- No output holds a semicolon, and no line of it a brace outside its literals: dropping these
braces leaves the line as it is, and none of them opens a block. -/
theorem undelimited_toPython (snippet : String) :
    ';' ∉ (toPython snippet).toList ∧
      ∀ line ∈ lines (toPython snippet).toList,
        Unbraced .outside line ∧ dropBraces line = line ∧ openBraces line = 0 := by
  rw [toPython, String.toList_ofList, Rendition.text_ofSnippet]
  have semicolon : ';' ∉ respelled snippet.toList := semicolon_notMem_convertSpelling _
  have undelimited := (undelimited_convertLayout semicolon).convertNames.trim
  refine ⟨undelimited.semicolon, fun line member => ?_⟩
  have unbraced := undelimited.unbraced line member
  exact ⟨unbraced, unbraced.dropBraces_eq, unbraced.openBraces_eq⟩

theorem undelimited_toPython_sample :
    let line := "    a = \"\x7b\"".toList
    line ∈ lines (toPython "if (b) \x7b\na = \"\x7b;\";\n\x7d").toList ∧
      Unbraced .outside line ∧ dropBraces line = line ∧ openBraces line = 0 := by
  have inside : "    a = \"\x7b\"".toList ∈
      lines (toPython "if (b) \x7b\na = \"\x7b;\";\n\x7d").toList := by decide +kernel
  exact ⟨inside, (undelimited_toPython _).2 _ inside⟩

end Offside
