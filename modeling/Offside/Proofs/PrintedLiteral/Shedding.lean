import Offside.Proofs.Branch
import Offside.Proofs.Builtins
import Offside.Proofs.Naming
import Offside.Proofs.Quiescence
import Offside.Proofs.Spelling
import Offside.Proofs.Text.Weight

/-!
# What the passes do to the weight of a text

The headers of branches, the spellings of the table and the names of built-ins lose weight when
they are replaced, for weights that suit them. With the weight of a single character this says
that no pass puts it into a text; with `burden` it says that no pass can touch a text and put it
right again.
-/

namespace Offside

/-- The weight that counts the occurrences of a character. -/
def occurrence (counted char : Char) : Int :=
  if char = counted then 1 else 0

theorem weigh_occurrence (counted : Char) (text : Text) :
    weigh (occurrence counted) text = text.count counted := by
  induction text with
  | nil => rfl
  | cons char text ih =>
      rw [weigh_cons, ih, occurrence, List.count_cons]
      by_cases same : char = counted
      · simp [same, Int.add_comm]
      · simp [same]

theorem occurrence_nonneg (counted char : Char) : 0 ≤ occurrence counted char := by
  rw [occurrence]
  split <;> decide

theorem weigh_occurrence_eq_zero {counted : Char} {text : Text} :
    weigh (occurrence counted) text = 0 ↔ counted ∉ text := by
  rw [weigh_occurrence, ← List.count_eq_zero]
  omega

/-! ## Headers of branches -/

theorem exists_of_skipSome? {text rest : Text} (found : skipSome? isBlank text = some rest) :
    ∃ blanks, AllBlank blanks ∧ text = blanks ++ rest := by
  cases text with
  | nil => cases found
  | cons char text =>
      rw [skipSome?, Option.ite_none_right_eq_some, Option.some.injEq] at found
      obtain ⟨skipped, skippedBlank, split⟩ := exists_append_skipBlanks text
      refine ⟨char :: skipped, ?_, ?_⟩
      · intro other member
        rcases List.mem_cons.1 member with rfl | later
        · exact found.1
        · exact skippedBlank other later
      · rw [← found.2]
        exact congrArg (char :: ·) split

theorem exists_of_condition? {text condition rest : Text}
    (found : condition? text = some (condition, rest)) :
    ∃ toParen toBrace, AllBlank toParen ∧ AllBlank toBrace ∧
      text = conditionText toParen condition toBrace ++ rest := by
  rw [condition?_eq] at found
  obtain ⟨behind, parenFound, searched⟩ := Option.bind_eq_some_iff.1 found
  obtain ⟨atParen, searchSplit, closed⟩ := shortest?_eq_some searched
  obtain ⟨behindParen, closeFound, braceFound⟩ := Option.bind_eq_some_iff.1 closed
  obtain ⟨toParen, parenBlank, textSplit⟩ := exists_append_skipBlanks text
  obtain ⟨toBrace, braceBlank, braceSplit⟩ := exists_append_skipBlanks behindParen
  refine ⟨toParen, toBrace, parenBlank, braceBlank, ?_⟩
  calc text
    _ = toParen ++ skipBlanks text := textSplit
    _ = toParen ++ ("(".toList ++ behind) := by rw [expect?_eq_some.1 parenFound]
    _ = toParen ++ ("(".toList ++ (condition ++ atParen)) := by rw [searchSplit]
    _ = toParen ++ ("(".toList ++ (condition ++ (")".toList ++ behindParen))) := by
        rw [expect?_eq_some.1 closeFound]
    _ = toParen ++ ("(".toList ++ (condition ++ (")".toList ++
          (toBrace ++ skipBlanks behindParen)))) := by rw [← braceSplit]
    _ = toParen ++ ("(".toList ++ (condition ++ (")".toList ++
          (toBrace ++ ("\x7b".toList ++ rest))))) := by rw [expect?_eq_some.1 braceFound]
    _ = conditionText toParen condition toBrace ++ rest := by
        simp only [conditionText, List.append_assoc]

theorem exists_of_else? {before : Option Char} {text rest : Text}
    (found : else? before text = some rest) :
    ∃ front, (∀ char ∈ front, char = '\x7d' ∨ isBlank char = true) ∧
      text = front ++ ("else".toList ++ rest) := by
  unfold else? at found
  split at found
  · next behind =>
      obtain ⟨skipped, skippedBlank, split⟩ := exists_append_skipBlanks behind
      refine ⟨'\x7d' :: skipped, ?_, ?_⟩
      · intro char member
        rcases List.mem_cons.1 member with rfl | later
        · exact .inl rfl
        · exact .inr (skippedBlank char later)
      · rw [expect?_eq_some.1 found] at split
        exact congrArg ('\x7d' :: ·) split
  · obtain ⟨_, _, expected⟩ := Option.bind_eq_some_iff.1 found
    refine ⟨[], fun _ member => (List.not_mem_nil member).elim, ?_⟩
    rw [List.nil_append, expect?_eq_some.1 expected]

section Headers

variable {weight : Char → Int} {loss : Nat}
  (blank : ∀ char, isBlank char = true → 0 ≤ weight char)
include blank

theorem weigh_nonneg_of_blank {blanks : Text} (allBlank : AllBlank blanks) :
    0 ≤ weigh weight blanks := by
  induction blanks with
  | nil => exact Int.le_refl 0
  | cons char blanks ih =>
      have here := blank char (allBlank char List.mem_cons_self)
      have tail := ih fun other member => allBlank other (List.mem_cons_of_mem char member)
      rw [weigh_cons]
      omega

theorem weigh_nonneg_of_front (closing : 0 ≤ weight '\x7d') {front : Text}
    (inside : ∀ char ∈ front, char = '\x7d' ∨ isBlank char = true) : 0 ≤ weigh weight front := by
  induction front with
  | nil => exact Int.le_refl 0
  | cons char front ih =>
      have tail := ih fun other member => inside other (List.mem_cons_of_mem char member)
      have here : 0 ≤ weight char := by
        rcases inside char List.mem_cons_self with rfl | isBlank
        · exact closing
        · exact blank char isBlank
      rw [weigh_cons]
      omega

/-- The marks around a condition are lost, and the condition is kept. -/
theorem le_weigh_conditionText {toParen toBrace : Text} (parenBlank : AllBlank toParen)
    (braceBlank : AllBlank toBrace) (condition : Text) :
    weigh weight condition + weigh weight ("(".toList ++ (")".toList ++ "\x7b".toList)) ≤
      weigh weight (conditionText toParen condition toBrace) := by
  have first := weigh_nonneg_of_blank blank parenBlank
  have second := weigh_nonneg_of_blank blank braceBlank
  simp only [conditionText, weigh_append]
  omega

theorem ifHeader_sheds
    (lighter : weigh weight ("if ".toList ++ ":".toList) + loss ≤
      weigh weight ("if".toList ++ ("(".toList ++ (")".toList ++ "\x7b".toList)))) (text : Text) :
    ifHeader.Sheds weight (fun condition => "if ".toList ++ condition ++ ":".toList) loss text := by
  intro before matched condition rest _ found
  rw [ifHeader_at?] at found
  obtain ⟨_, _, afterGuard⟩ := Option.bind_eq_some_iff.1 found
  obtain ⟨behind, ifFound, conditionFound⟩ := Option.bind_eq_some_iff.1 afterGuard
  obtain ⟨toParen, toBrace, parenBlank, braceBlank, rfl⟩ := exists_of_condition? conditionFound
  have split := expect?_eq_some.1 ifFound
  rw [← List.append_assoc] at split
  obtain rfl := List.append_cancel_right split
  have inside := le_weigh_conditionText blank parenBlank braceBlank condition
  simp only [weigh_append] at lighter inside ⊢
  omega

variable (closing : 0 ≤ weight '\x7d')
include closing

theorem elseIfHeader_sheds
    (lighter : weigh weight ("elif ".toList ++ ":".toList) + loss ≤
      weigh weight ("else".toList ++ ("if".toList ++
        ("(".toList ++ (")".toList ++ "\x7b".toList))))) (text : Text) :
    elseIfHeader.Sheds weight (fun condition => "elif ".toList ++ condition ++ ":".toList) loss
      text := by
  intro before matched condition rest _ found
  rw [elseIfHeader_at?] at found
  obtain ⟨behindElse, elseFound, afterElse⟩ := Option.bind_eq_some_iff.1 found
  obtain ⟨atIf, skipped, afterBlanks⟩ := Option.bind_eq_some_iff.1 afterElse
  obtain ⟨behindIf, ifFound, conditionFound⟩ := Option.bind_eq_some_iff.1 afterBlanks
  obtain ⟨front, frontInside, split⟩ := exists_of_else? elseFound
  obtain ⟨toIf, ifBlank, rfl⟩ := exists_of_skipSome? skipped
  obtain rfl := expect?_eq_some.1 ifFound
  obtain ⟨toParen, toBrace, parenBlank, braceBlank, rfl⟩ := exists_of_condition? conditionFound
  have whole : matched ++ rest = front ++ ("else".toList ++ (toIf ++ ("if".toList ++
      conditionText toParen condition toBrace))) ++ rest := by
    simpa only [List.append_assoc] using split
  have first := weigh_nonneg_of_front blank closing frontInside
  have second := weigh_nonneg_of_blank blank ifBlank
  have inside := le_weigh_conditionText blank parenBlank braceBlank condition
  rw [List.append_cancel_right whole]
  simp only [weigh_append] at lighter inside ⊢
  omega

theorem elseHeader_sheds
    (lighter : weigh weight "else:".toList + loss ≤
      weigh weight ("else".toList ++ "\x7b".toList)) (text : Text) :
    elseHeader.Sheds weight (fun _ => "else:".toList) loss text := by
  intro before matched value rest _ found
  rw [elseHeader_at?] at found
  obtain ⟨behindElse, elseFound, afterElse⟩ := Option.bind_eq_some_iff.1 found
  obtain ⟨left, braceFound, result⟩ := Option.bind_eq_some_iff.1 afterElse
  cases result
  obtain ⟨front, frontInside, split⟩ := exists_of_else? elseFound
  obtain ⟨toBrace, braceBlank, braceSplit⟩ := exists_append_skipBlanks behindElse
  rw [expect?_eq_some.1 braceFound] at braceSplit
  have whole : matched ++ rest =
      front ++ ("else".toList ++ (toBrace ++ "\x7b".toList)) ++ rest := by
    rw [split, braceSplit]
    simp only [List.append_assoc]
  have first := weigh_nonneg_of_front blank closing frontInside
  have second := weigh_nonneg_of_blank blank braceBlank
  rw [List.append_cancel_right whole]
  simp only [weigh_append] at lighter ⊢
  omega

end Headers

/-- A weight that every header of a branch loses some of. -/
structure BranchWeight (weight : Char → Int) (loss : Nat) : Prop where
  blank : ∀ char, isBlank char = true → 0 ≤ weight char
  closing : 0 ≤ weight '\x7d'
  chained : weigh weight ("elif ".toList ++ ":".toList) + loss ≤
    weigh weight ("else".toList ++ ("if".toList ++ ("(".toList ++ (")".toList ++ "\x7b".toList))))
  single : weigh weight ("if ".toList ++ ":".toList) + loss ≤
    weigh weight ("if".toList ++ ("(".toList ++ (")".toList ++ "\x7b".toList)))
  otherwise : weigh weight "else:".toList + loss ≤ weigh weight ("else".toList ++ "\x7b".toList)

theorem elseIfHeader_proper : elseIfHeader.Proper :=
  elseIfHeader_opensWith.proper (by decide)

theorem ifHeader_proper : ifHeader.Proper :=
  ifHeader_opensWith.proper (by decide)

theorem elseHeader_proper : elseHeader.Proper :=
  elseHeader_opensWith.proper (by decide)

/-- A text without headers is left as it is. -/
theorem convertBranches_of_hits_eq_nil {text : Text} (noElseIf : elseIfHeader.hits text = [])
    (noIf : ifHeader.hits text = []) (noElse : elseHeader.hits text = []) :
    convertBranches text = text := by
  rw [convertBranches, Recognizer.replaceAll_of_hits_eq_nil noElseIf,
    Recognizer.replaceAll_of_hits_eq_nil noIf, Recognizer.replaceAll_of_hits_eq_nil noElse]

namespace BranchWeight

variable {weight : Char → Int} {loss : Nat}

theorem chained_sheds (suits : BranchWeight weight loss) (text : Text) :
    elseIfHeader.Sheds weight (fun condition => "elif ".toList ++ condition ++ ":".toList) loss
      text :=
  elseIfHeader_sheds suits.blank suits.closing suits.chained text

theorem single_sheds (suits : BranchWeight weight loss) (text : Text) :
    ifHeader.Sheds weight (fun condition => "if ".toList ++ condition ++ ":".toList) loss text :=
  ifHeader_sheds suits.blank suits.single text

theorem otherwise_sheds (suits : BranchWeight weight loss) (text : Text) :
    elseHeader.Sheds weight (fun _ => "else:".toList) loss text :=
  elseHeader_sheds suits.blank suits.closing suits.otherwise text

theorem weigh_convertBranches_le (suits : BranchWeight weight loss) (text : Text) :
    weigh weight (convertBranches text) ≤ weigh weight text := by
  calc weigh weight (convertBranches text)
    _ ≤ _ := (suits.otherwise_sheds _).weigh_le elseHeader_proper
    _ ≤ _ := (suits.single_sheds _).weigh_le ifHeader_proper
    _ ≤ weigh weight text := (suits.chained_sheds text).weigh_le elseIfHeader_proper

/-- A text that has lost no weight holds no header. -/
theorem hits_eq_nil (suits : BranchWeight weight 1) {text : Text}
    (kept : weigh weight text ≤ weigh weight (convertBranches text)) :
    elseIfHeader.hits text = [] ∧ ifHeader.hits text = [] ∧ elseHeader.hits text = [] := by
  rw [convertBranches] at kept
  -- Nothing is found by the first pass, so that the second one sees the same text, and so on.
  have noChained : elseIfHeader.hits text = [] := by
    apply (suits.chained_sheds text).hits_eq_nil elseIfHeader_proper
    exact Int.le_trans kept (Int.le_trans
      ((suits.otherwise_sheds _).weigh_le elseHeader_proper)
      ((suits.single_sheds _).weigh_le ifHeader_proper))
  rw [Recognizer.replaceAll_of_hits_eq_nil noChained] at kept
  have noSingle : ifHeader.hits text = [] := by
    apply (suits.single_sheds text).hits_eq_nil ifHeader_proper
    exact Int.le_trans kept ((suits.otherwise_sheds _).weigh_le elseHeader_proper)
  rw [Recognizer.replaceAll_of_hits_eq_nil noSingle] at kept
  exact ⟨noChained, noSingle, (suits.otherwise_sheds text).hits_eq_nil elseHeader_proper kept⟩

/-- The characters that are not part of the headers can be counted. -/
theorem of_occurrence {counted : Char} (foreign : counted ∉ "elif: s".toList) :
    BranchWeight (occurrence counted) 0 := by
  have nonneg : ∀ text, 0 ≤ weigh (occurrence counted) text := by
    intro text
    rw [weigh_occurrence]
    exact Int.natCast_nonneg _
  have light : ∀ text : Text, text ⊆ "elif: s".toList →
      ∀ other, weigh (occurrence counted) text + (0 : Nat) ≤ weigh (occurrence counted) other := by
    intro text within other
    rw [weigh_occurrence_eq_zero.2 fun member => foreign (within member)]
    exact nonneg other
  exact {
    blank := fun char _ => occurrence_nonneg counted char
    closing := occurrence_nonneg counted _
    chained := light _ (by decide) _
    single := light _ (by decide) _
    otherwise := light _ (by decide) _ }

end BranchWeight

theorem notMem_convertBranches {char : Char} (foreign : char ∉ "elif: s".toList) {text : Text}
    (missing : char ∉ text) : char ∉ convertBranches text := by
  have lighter := (BranchWeight.of_occurrence foreign).weigh_convertBranches_le text
  rw [weigh_occurrence_eq_zero.2 missing, weigh_occurrence] at lighter
  rw [← List.count_eq_zero]
  omega

/-- Without an opening brace there is no header of a branch. -/
theorem convertBranches_of_notMem {text : Text} (noBrace : '\x7b' ∉ text) :
    convertBranches text = text := by
  have suits : BranchWeight (occurrence '\x7b') 1 := {
    blank := fun char _ => occurrence_nonneg _ char
    closing := by decide
    chained := by decide
    single := by decide
    otherwise := by decide }
  have kept : weigh (occurrence '\x7b') text ≤
      weigh (occurrence '\x7b') (convertBranches text) := by
    rw [weigh_occurrence_eq_zero.2 noBrace, weigh_occurrence]
    exact Int.natCast_nonneg _
  obtain ⟨noElseIf, noIf, noElse⟩ := suits.hits_eq_nil kept
  exact convertBranches_of_hits_eq_nil noElseIf noIf noElse

/-! ## Spellings -/

section Spellings

variable {weight : Char → Int}

theorem fixed_sheds {old new : Text} {loss : Nat}
    (lighter : weigh weight new + loss ≤ weigh weight old) (text : Text) :
    (Recognizer.fixed old).Sheds weight (fun _ => new) loss text := by
  intro before matched value rest _ found
  rw [Recognizer.fixed_at?, Option.map_eq_some_iff] at found
  obtain ⟨behind, expected, result⟩ := found
  cases result
  rwa [List.append_cancel_right (expect?_eq_some.1 expected)]

theorem weigh_respellBy_le {table : List (String × String)}
    (nonempty : ∀ spelling ∈ table, spelling.1.toList ≠ [])
    (lighter : ∀ spelling ∈ table,
      weigh weight spelling.2.toList ≤ weigh weight spelling.1.toList) (line : Text) :
    weigh weight (respellBy table line) ≤ weigh weight line := by
  induction table generalizing line with
  | nil => exact Int.le_refl _
  | cons spelling table ih =>
      have lighterHere : weigh weight spelling.2.toList + (0 : Nat) ≤
          weigh weight spelling.1.toList := by
        have here := lighter spelling List.mem_cons_self
        omega
      have here := (fixed_sheds lighterHere line).weigh_le
        (Recognizer.fixed_proper (nonempty spelling List.mem_cons_self))
      have tail := ih (fun other member => nonempty other (List.mem_cons_of_mem spelling member))
        fun other member => lighter other (List.mem_cons_of_mem spelling member)
      rw [respellBy_cons]
      exact Int.le_trans (tail _) here

theorem not_isInfix_of_hits_eq_nil {old line : Text} (nonempty : old ≠ [])
    (noHit : (Recognizer.fixed old).hits line = []) : ¬old <:+: line := by
  rintro ⟨front, back, rfl⟩
  rw [List.append_assoc] at noHit
  have silent := (Recognizer.fixed_proper nonempty).silent noHit
  have missing := silent.at?_eq_none (List.append_ne_nil_of_left_ne_nil nonempty back)
  rw [List.append_nil, Recognizer.fixed_at?, expect?_append] at missing
  cases missing

/-- A line that has lost no weight holds no spelling. -/
theorem absent_of_weigh_respellBy {table : List (String × String)}
    (nonempty : ∀ spelling ∈ table, spelling.1.toList ≠ [])
    (lighter : ∀ spelling ∈ table,
      weigh weight spelling.2.toList + 1 ≤ weigh weight spelling.1.toList) {line : Text}
    (kept : weigh weight line ≤ weigh weight (respellBy table line)) :
    ∀ spelling ∈ table, ¬spelling.1.toList <:+: line := by
  induction table generalizing line with
  | nil =>
      intro spelling member
      cases member
  | cons spelling table ih =>
      have solid := nonempty spelling List.mem_cons_self
      have nonemptyTail : ∀ other ∈ table, other.1.toList ≠ [] := fun other member =>
        nonempty other (List.mem_cons_of_mem spelling member)
      have lighterTail : ∀ other ∈ table,
          weigh weight other.2.toList + 1 ≤ weigh weight other.1.toList := fun other member =>
        lighter other (List.mem_cons_of_mem spelling member)
      have sheds : (Recognizer.fixed spelling.1.toList).Sheds weight
          (fun _ => spelling.2.toList) 1 line :=
        fixed_sheds (lighter spelling List.mem_cons_self) line
      have lighterLater : ∀ other ∈ table,
          weigh weight other.2.toList ≤ weigh weight other.1.toList := fun other member =>
        Int.le_of_lt (lighterTail other member)
      have tail := weigh_respellBy_le nonemptyTail lighterLater
        ((Recognizer.fixed spelling.1.toList).replaceAll (fun _ => spelling.2.toList) line)
      rw [respellBy_cons] at kept
      have noHit := sheds.hits_eq_nil (Recognizer.fixed_proper solid) (Int.le_trans kept tail)
      rw [Recognizer.replaceAll_of_hits_eq_nil noHit] at kept
      intro other member
      rcases List.mem_cons.1 member with rfl | later
      · exact not_isInfix_of_hits_eq_nil solid noHit
      · exact ih nonemptyTail lighterTail kept other later

end Spellings

/-! ## Names -/

section Names

variable {weight : Char → Int}

theorem wholeWord_sheds {loss : Nat} (lighter : weigh weight freshEnding.toList + loss ≤ 0)
    (name text : Text) :
    (Recognizer.wholeWord name).Sheds weight (fun _ => freshName name) loss text := by
  intro before matched value rest _ found
  rw [Recognizer.wholeWord_at?, Option.ite_none_right_eq_some] at found
  obtain ⟨behind, expected, closed⟩ := Option.bind_eq_some_iff.1 found.2
  rw [Option.ite_none_right_eq_some] at closed
  cases closed.2
  rw [List.append_cancel_right (expect?_eq_some.1 expected), freshName, weigh_append]
  omega

theorem weigh_foldl_rename_le (lighter : weigh weight freshEnding.toList ≤ 0) {names : List Text}
    (words : ∀ name ∈ names, IsWord name) (text : Text) :
    weigh weight (names.foldl rename text) ≤ weigh weight text := by
  induction names generalizing text with
  | nil => exact Int.le_refl _
  | cons name names ih =>
      have lossless : weigh weight freshEnding.toList + (0 : Nat) ≤ 0 := by omega
      have here := (wholeWord_sheds lossless name text).weigh_le
        (wholeWord_proper (words name List.mem_cons_self))
      exact Int.le_trans (ih (fun other member => words other (List.mem_cons_of_mem name member))
        (rename text name)) here

theorem isWord_of_mem_hiddenBuiltins {text name : Text} (hidden : name ∈ hiddenBuiltins text) :
    IsWord name :=
  isWord_of_mem_builtinNames (List.mem_filter.1 hidden).1

theorem weigh_convertNames_le (lighter : weigh weight freshEnding.toList ≤ 0) (text : Text) :
    weigh weight (convertNames text).text ≤ weigh weight text :=
  weigh_foldl_rename_le lighter (fun _ => isWord_of_mem_hiddenBuiltins) text

/-- A name that is assigned to stands somewhere as a whole word. -/
theorem wholeWord_hits_ne_nil {text name : Text} (isName : IsWord name)
    (assigned : name ∈ assignedNames text) : (Recognizer.wholeWord name).hits text ≠ [] := by
  intro noHit
  obtain ⟨⟨matched, sign⟩, isHit, chosen⟩ := List.mem_filterMap.1 assigned
  have named : (if sign.doubled then none else some sign.identifier) = some name := chosen
  rw [Option.ite_none_left_eq_some] at named
  cases named.2
  obtain ⟨piece, inPieces, hit⟩ := List.mem_filterMap.1 isHit
  cases piece with
  | gap char => cases hit
  | hit other value =>
      cases hit
      obtain ⟨front, here, left, rfl, found⟩ :=
        (equalsSign_proper.cuts none text).exists_of_hit_mem inPieces
      obtain ⟨char, rest, apart, rfl⟩ := equalsSign_at?_eq_some found
      have missing := ((wholeWord_proper isName).silent noHit).at?_eq_none (by simp)
      have opens : opensWord (passed none front) = true := by
        rw [equalsSign_at?] at found
        obtain ⟨_, opened, _⟩ := Option.bind_eq_some_iff.1 found
        exact (Option.guard_eq_some' _).1 opened
      have closes : closesWord (char :: rest) = true := by
        apply closesWord_cons
        rcases apart with blank | rfl
        · exact isWordChar_of_isBlank blank
        · rfl
      rw [List.append_nil, Recognizer.wholeWord_at?, if_pos opens, expect?_append,
        Option.bind_some, if_pos closes] at missing
      cases missing

/-- A text that has lost no weight hides no built-in. -/
theorem hiddenBuiltins_eq_nil_of_weigh (lighter : weigh weight freshEnding.toList + 1 ≤ 0)
    {text : Text} (kept : weigh weight text ≤ weigh weight (convertNames text).text) :
    hiddenBuiltins text = [] := by
  rw [convertNames] at kept
  cases hidden : hiddenBuiltins text with
  | nil => rfl
  | cons name names =>
      rw [hidden] at kept
      have isHidden : ∀ other ∈ name :: names, other ∈ hiddenBuiltins text := by
        rw [hidden]
        exact fun _ member => member
      have isName := isWord_of_mem_hiddenBuiltins (isHidden name List.mem_cons_self)
      have later := weigh_foldl_rename_le (Int.le_of_lt lighter) (fun other member =>
        isWord_of_mem_hiddenBuiltins (isHidden other (List.mem_cons_of_mem name member)))
        (rename text name)
      have noHit := (wholeWord_sheds lighter name text).hits_eq_nil (wholeWord_proper isName)
        (Int.le_trans kept later)
      have assigned : name ∈ assignedNames text :=
        of_decide_eq_true (List.mem_filter.1 (isHidden name List.mem_cons_self)).2
      exact absurd noHit (wholeWord_hits_ne_nil isName assigned)

end Names

/-! ## A weight that every change loses -/

/-- The weight of a character of which every header, every spelling and every fresh name loses
some. -/
def burden (char : Char) : Int :=
  if char = '_' then -1
  else if "tfu.;\x7b".toList.contains char then 1
  else 0

theorem burden_of_isBlank {char : Char} (blank : isBlank char = true) : burden char = 0 := by
  have visible : ∀ other ∈ "_tfu.;\x7b".toList, isBlank other = false := by decide
  have other : char ∉ "_tfu.;\x7b".toList := by
    intro member
    rw [visible char member] at blank
    cases blank
  have unmarked : char ≠ '_' := fun same => other (same ▸ by decide)
  have unlisted : "tfu.;\x7b".toList.contains char = false := by
    rw [Bool.eq_false_iff, ne_eq, List.contains_iff_mem]
    exact fun member => other (List.mem_cons_of_mem '_' member)
  rw [burden, if_neg unmarked, unlisted]
  rfl

theorem branchWeight_burden : BranchWeight burden 1 where
  blank _ isBlank := Int.le_of_eq (burden_of_isBlank isBlank).symm
  closing := by decide
  chained := by decide
  single := by decide
  otherwise := by decide

theorem burden_spellings : ∀ spelling ∈ spellings,
    weigh burden spelling.2.toList + 1 ≤ weigh burden spelling.1.toList := by decide

theorem burden_freshEnding : weigh burden freshEnding.toList + 1 ≤ 0 := by decide

end Offside
