import Offside.Loop.Header
import Offside.Proofs.Text.Recognition
import Offside.Proofs.Text.Token

/-!
# The clauses of a counted loop

A header is cut into its clauses whatever blanks stand between them, as long as no clause holds
the mark that ends it.
-/

namespace Offside

/-- A clause on one line, without the mark that ends it and without blanks in front. -/
structure IsClause (mark : Char) (clause : Text) : Prop where
  nonempty : clause ≠ []
  starts : StartsSolid clause
  single : '\n' ∉ clause
  free : mark ∉ clause

/-! ## Finding the clauses -/

section Clauses

variable {blanks clause trailing : Text}

theorem updateClause?_append (blank : AllBlank blanks) (isClause : IsClause ')' clause)
    (ends : EndsSolid clause) (trailingBlank : AllBlank trailing) (tail : Text) :
    updateClause? (blanks ++ (clause ++ (trailing ++ ')' :: tail))) = some (clause, tail) := by
  rw [updateClause?, skipBlanks_append blank,
    (isClause.starts.append isClause.nonempty).skipBlanks_eq]
  refine shortest?_append isClause.single ?_ ?_
  · -- An end of the clause holds a visible character, and that is no parenthesis.
    intro back nonempty suffix
    obtain ⟨front, rfl⟩ := suffix
    obtain ⟨skipped, skippedBlank, split⟩ := exists_append_skipBlanks back
    have visible := ends.of_append.skipBlanks_ne_nil nonempty
    obtain ⟨char, others, first⟩ := List.exists_cons_of_ne_nil visible
    have other : char ≠ ')' := by
      rintro rfl
      apply isClause.free
      rw [split, first]
      simp
    have solid := startsSolid_skipBlanks back
    rw [first] at split solid
    rw [split, List.append_assoc, skipBlanks_append skippedBlank, List.cons_append,
      skipBlanks_cons_of_solid (solid char rfl)]
    exact expect?_cons_of_ne other [] _
  · rw [skipBlanks_append trailingBlank, skipBlanks_cons_of_solid (by decide)]
    exact expect?_append [')'] tail

/-- A clause that ends at a semicolon, with something else behind it. -/
private theorem shortest?_clause {β : Type} {next? : Text → Option β} {found : β} {tail : Text}
    (blank : AllBlank blanks) (isClause : IsClause ';' clause)
    (behind : next? tail = some found) :
    shortest? (fun here => expect? ";".toList here >>= next?)
      (skipBlanks (blanks ++ (clause ++ ';' :: tail))) = some (clause, found) := by
  rw [skipBlanks_append blank,
    (isClause.starts.append isClause.nonempty).skipBlanks_eq]
  have stops : (expect? ";".toList (';' :: tail) >>= next?) = some found := behind
  refine shortest?_append_of_notMem ?_ isClause.single isClause.free stops
  intro char text other
  have missing : expect? ";".toList (char :: text) = none := expect?_cons_of_ne other [] text
  rw [missing]
  rfl

theorem conditionClause?_append {update behind tail : Text} (blank : AllBlank blanks)
    (isClause : IsClause ';' clause) (found : updateClause? behind = some (update, tail)) :
    conditionClause? (blanks ++ (clause ++ ';' :: behind)) = some (clause, update, tail) :=
  shortest?_clause blank isClause found

theorem startClause?_append {condition update behind tail : Text} (blank : AllBlank blanks)
    (isClause : IsClause ';' clause)
    (found : conditionClause? behind = some (condition, update, tail)) :
    startClause? (blanks ++ (clause ++ ';' :: behind)) =
      some (clause, condition, update, tail) :=
  shortest?_clause blank isClause found

end Clauses

/-! ## Finding the counter -/

theorem counter?_of_word? {text first behind : Text}
    (found : word? text = some (first, behind)) :
    counter? text =
      if counterTypes.any fun type => type.toList = first then
        some ((skipSome? isBlank behind >>= word?).getD (first, behind))
      else
        some (first, behind) := by
  rw [counter?, found, Option.bind_eq_bind, Option.bind_some]
  cases second : skipSome? isBlank behind >>= word? with
  | none => simp only [second]; rfl
  | some result => simp only [second]; rfl

/-- A counter with no word behind it, whether or not it has the name of a type. -/
theorem counter?_append {counter behind : Text} (isWord : IsWord counter)
    (closes : closesWord behind = true) (noWord : word? (skipBlanks behind) = none) :
    counter? (counter ++ behind) = some (counter, behind) := by
  have second : (skipSome? isBlank behind >>= word?) = none := by
    cases behind with
    | nil => rfl
    | cons char rest =>
        cases blank : isBlank char with
        | false => simp [skipSome?, blank]
        | true =>
            have skipped : skipBlanks (char :: rest) = rest.dropWhile isBlank := by
              simp [skipBlanks, blank]
            rw [skipped] at noWord
            simp [skipSome?, blank, noWord]
  rw [counter?_of_word? (isWord.word?_append closes), second]
  exact ite_self _

/-- A counter behind its type. -/
theorem counter?_append_typed {type : String} {gap counter behind : Text}
    (known : type ∈ counterTypes) (isType : IsWord type.toList) (nonempty : gap ≠ [])
    (isGap : IsGap gap) (isWord : IsWord counter) (starts : StartsSolid counter)
    (closes : closesWord behind = true) :
    counter? (type.toList ++ (gap ++ (counter ++ behind))) = some (counter, behind) := by
  have isCounterType : (counterTypes.any fun other => other.toList = type.toList) = true :=
    List.any_eq_true.2 ⟨type, known, decide_eq_true rfl⟩
  have skipped : skipSome? isBlank (gap ++ (counter ++ behind)) = some (counter ++ behind) :=
    skipSome?_append_of_stop nonempty isGap.allBlank (starts.append isWord.nonempty)
  have closesType := isGap.closesWord_of_ne_nil nonempty (counter ++ behind)
  rw [counter?_of_word? (isType.word?_append closesType),
    if_pos isCounterType, skipped, Option.bind_eq_bind, Option.bind_some,
    isWord.word?_append closes]
  rfl

/-! ## Finding the header -/

theorem countedLoop_at? (before : Option Char) (text : Text) :
    countedLoop.at? before text =
      Option.bind (guard (opensWord before = true)) fun _ =>
      (expect? "for".toList text).bind fun text =>
      (expect? "(".toList (skipBlanks text)).bind fun text =>
      (counter? (skipBlanks text)).bind fun (counter, text) =>
      (expect? "=".toList (skipBlanks text)).bind fun text =>
      (startClause? text).bind fun (start, condition, update, rest) =>
      some ({ counter, start, condition, update }, rest) :=
  rfl

theorem counter?_suffix {text counter rest : Text} (found : counter? text = some (counter, rest)) :
    rest <:+ text := by
  cases first : word? text with
  | none =>
      rw [counter?, first] at found
      cases found
  | some result =>
      obtain ⟨word, behind⟩ := result
      have behindSuffix := word?_suffix first
      rw [counter?_of_word? first] at found
      split at found
      · cases second : skipSome? isBlank behind >>= word? with
        | none =>
            rw [second] at found
            cases found
            exact behindSuffix
        | some result =>
            rw [second] at found
            cases found
            obtain ⟨skipped, skippedFound, secondFound⟩ := Option.bind_eq_some_iff.1 second
            exact (word?_suffix secondFound).trans
              ((skipSome?_suffix skippedFound).trans behindSuffix)
      · cases found
        exact behindSuffix

/-- There is a semicolon behind the start value, and another one behind the condition. -/
theorem startClause?_eq_some {text start condition update rest : Text}
    (found : startClause? text = some (start, condition, update, rest)) :
    ∃ behindStart behindCondition, ";".toList ++ behindStart <:+ text ∧
      ";".toList ++ behindCondition <:+ behindStart ∧ rest <:+ behindCondition := by
  obtain ⟨atStart, startSplit, startFound⟩ := shortest?_eq_some found
  obtain ⟨behindStart, startMark, foundCondition⟩ := Option.bind_eq_some_iff.1 startFound
  obtain ⟨atCondition, conditionSplit, conditionFound⟩ := shortest?_eq_some foundCondition
  obtain ⟨behindCondition, conditionMark, foundUpdate⟩ :=
    Option.bind_eq_some_iff.1 conditionFound
  obtain ⟨atUpdate, updateSplit, updateFound⟩ := shortest?_eq_some foundUpdate
  refine ⟨behindStart, behindCondition, ?_, ?_, ?_⟩
  · calc ";".toList ++ behindStart
      _ = atStart := (expect?_eq_some.1 startMark).symm
      _ <:+ skipBlanks text := ⟨start, startSplit.symm⟩
      _ <:+ text := skipBlanks_suffix text
  · calc ";".toList ++ behindCondition
      _ = atCondition := (expect?_eq_some.1 conditionMark).symm
      _ <:+ skipBlanks behindStart := ⟨condition, conditionSplit.symm⟩
      _ <:+ behindStart := skipBlanks_suffix behindStart
  · calc rest
      _ <:+ atUpdate := (expect?_suffix updateFound).trans (skipBlanks_suffix atUpdate)
      _ <:+ skipBlanks behindCondition := ⟨update, updateSplit.symm⟩
      _ <:+ behindCondition := skipBlanks_suffix behindCondition

theorem countedLoop_at?_eq_some {before : Option Char} {text rest : Text} {clauses : LoopClauses}
    (found : countedLoop.at? before text = some (clauses, rest)) :
    ∃ behind behindStart behindCondition, text = "for".toList ++ behind ∧
      ";".toList ++ behindStart <:+ behind ∧ ";".toList ++ behindCondition <:+ behindStart ∧
      rest <:+ behindCondition := by
  rw [countedLoop_at?] at found
  simp only [Option.bind_eq_some_iff] at found
  obtain ⟨_, _, behindFor, forFound, behindParen, parenFound, ⟨counter, behindCounter⟩,
    counterFound, behindEquals, equalsFound, ⟨start, condition, update, left⟩, startFound,
    result⟩ := found
  cases result
  obtain ⟨behindStart, behindCondition, startMark, conditionMark, updateFound⟩ :=
    startClause?_eq_some startFound
  refine ⟨behindFor, behindStart, behindCondition, expect?_eq_some.1 forFound, ?_, conditionMark,
    updateFound⟩
  calc ";".toList ++ behindStart
    _ <:+ behindEquals := startMark
    _ <:+ skipBlanks behindCounter := expect?_suffix equalsFound
    _ <:+ behindCounter := skipBlanks_suffix behindCounter
    _ <:+ skipBlanks behindParen := counter?_suffix counterFound
    _ <:+ behindParen := skipBlanks_suffix behindParen
    _ <:+ skipBlanks behindFor := expect?_suffix parenFound
    _ <:+ behindFor := skipBlanks_suffix behindFor

theorem countedLoop_opensWith : countedLoop.OpensWith ["for".toList] := by
  intro before text clauses rest found
  obtain ⟨behind, behindStart, behindCondition, split, startMark, conditionMark, updateFound⟩ :=
    countedLoop_at?_eq_some found
  refine ⟨_, List.mem_singleton_self _, behind, split, ?_⟩
  calc rest
    _ <:+ behindCondition := updateFound
    _ <:+ behindStart := (List.suffix_append _ behindCondition).trans conditionMark
    _ <:+ behind := (List.suffix_append _ behindStart).trans startMark

/-- A counted loop has two semicolons at least. -/
theorem two_le_count_of_countedLoop {before : Option Char} {text rest : Text}
    {clauses : LoopClauses} (found : countedLoop.at? before text = some (clauses, rest)) :
    2 ≤ text.count ';' := by
  obtain ⟨behind, behindStart, behindCondition, rfl, startMark, conditionMark, _⟩ :=
    countedLoop_at?_eq_some found
  have first := startMark.sublist.count_le ';'
  have second := conditionMark.sublist.count_le ';'
  have whole := (List.suffix_append "for".toList behind).sublist.count_le ';'
  have one : ∀ text, (";".toList ++ text).count ';' = text.count ';' + 1 :=
    fun text => List.count_cons_self
  rw [one] at first second
  omega

/-- A header is recognised from its counter and its clauses. -/
theorem countedLoop_at?_append {before : Option Char} {toParen toCounter declared toEquals clauses
    counter start condition update tail : Text} (opens : opensWord before = true)
    (parenBlank : AllBlank toParen) (counterBlank : AllBlank toCounter)
    (equalsBlank : AllBlank toEquals) (nonempty : declared ≠ []) (starts : StartsSolid declared)
    (counterFound : counter? (declared ++ (toEquals ++ '=' :: clauses)) =
      some (counter, toEquals ++ '=' :: clauses))
    (clausesFound : startClause? clauses = some (start, condition, update, tail)) :
    countedLoop.at? before ("for".toList ++
        (toParen ++ '(' :: (toCounter ++ (declared ++ (toEquals ++ '=' :: clauses))))) =
      some ({ counter, start, condition, update }, tail) := by
  have parenFound : ∀ text,
      expect? "(".toList (skipBlanks (toParen ++ '(' :: text)) = some text := by
    intro text
    rw [skipBlanks_append parenBlank, skipBlanks_cons_of_solid (by decide)]
    exact expect?_append ['('] text
  have equalsFound :
      expect? "=".toList (skipBlanks (toEquals ++ '=' :: clauses)) = some clauses := by
    rw [skipBlanks_append equalsBlank, skipBlanks_cons_of_solid (by decide)]
    exact expect?_append ['='] clauses
  rw [countedLoop_at?, opens, expect?_append, Option.bind_some, parenFound, Option.bind_some,
    skipBlanks_append counterBlank, (starts.append nonempty).skipBlanks_eq, counterFound]
  simp only [Option.bind_some, equalsFound, clausesFound]
  rfl

end Offside
