import Offside.Branch
import Offside.Proofs.Text.Recognition

/-!
# Headers of branches

What the recognisers of branch headers take and leave. They start at a closing brace or at a
keyword, and a condition without opening braces and newlines is found as a whole.
-/

namespace Offside

theorem condition?_eq (text : Text) :
    condition? text =
      (expect? "(".toList (skipBlanks text)).bind fun text =>
        shortest? (fun here => (expect? ")".toList here).bind fun here =>
          expect? "\x7b".toList (skipBlanks here)) text := rfl

theorem elseIfHeader_at? (before : Option Char) (text : Text) :
    elseIfHeader.at? before text =
      (else? before text).bind fun text =>
      (skipSome? isBlank text).bind fun text =>
      (expect? "if".toList text).bind condition? := rfl

theorem ifHeader_at? (before : Option Char) (text : Text) :
    ifHeader.at? before text =
      Option.bind (guard (opensWord before = true)) fun _ =>
      (expect? "if".toList text).bind condition? := rfl

theorem elseHeader_at? (before : Option Char) (text : Text) :
    elseHeader.at? before text =
      (else? before text).bind fun text =>
      (expect? "\x7b".toList (skipBlanks text)).bind fun rest => some ((), rest) := rfl

/-! ## What is left -/

theorem condition?_suffix {text condition rest : Text}
    (found : condition? text = some (condition, rest)) : rest <:+ text := by
  rw [condition?_eq] at found
  rcases Option.bind_eq_some_iff.1 found with ⟨behind, parenFound, searched⟩
  rcases shortest?_eq_some searched with ⟨atParen, split, closed⟩
  rcases Option.bind_eq_some_iff.1 closed with ⟨behindParen, closeFound, braceFound⟩
  calc rest
    _ <:+ skipBlanks behindParen := expect?_suffix braceFound
    _ <:+ behindParen := skipBlanks_suffix behindParen
    _ <:+ atParen := expect?_suffix closeFound
    _ <:+ behind := ⟨condition, split.symm⟩
    _ <:+ skipBlanks text := expect?_suffix parenFound
    _ <:+ text := skipBlanks_suffix text

/-- A closing brace and blanks in front of an `else` go with it. -/
theorem else?_append {toElse : Text} (blank : AllBlank toElse) (before : Option Char)
    (rest : Text) :
    else? before ("\x7d".toList ++ (toElse ++ ("else".toList ++ rest))) = some rest := by
  have skipped : expect? "else".toList (skipBlanks (toElse ++ ("else".toList ++ rest))) =
      some rest := by
    rw [skipBlanks_append blank]
    rfl
  exact skipped

/-- The texts that can stand at the front of an `else`. -/
def elseOpenings : List Text :=
  ["\x7d".toList, "else".toList]

theorem else?_eq_some {before : Option Char} {text rest : Text}
    (found : else? before text = some rest) :
    ∃ opening ∈ elseOpenings, ∃ behind, text = opening ++ behind ∧ rest <:+ behind := by
  unfold else? at found
  split at found
  · next behind =>
      refine ⟨_, List.mem_cons_self, behind, rfl, ?_⟩
      exact (expect?_suffix found).trans (skipBlanks_suffix behind)
  · rcases Option.bind_eq_some_iff.1 found with ⟨_, _, expected⟩
    exact ⟨_, List.mem_cons_of_mem _ List.mem_cons_self, rest, expect?_eq_some.1 expected,
      List.suffix_rfl⟩

theorem elseIfHeader_opensWith : elseIfHeader.OpensWith elseOpenings := by
  intro before text condition rest found
  rw [elseIfHeader_at?] at found
  rcases Option.bind_eq_some_iff.1 found with ⟨behindElse, elseFound, afterElse⟩
  rcases Option.bind_eq_some_iff.1 afterElse with ⟨atIf, skipped, afterBlanks⟩
  rcases Option.bind_eq_some_iff.1 afterBlanks with ⟨behindIf, ifFound, conditionFound⟩
  rcases else?_eq_some elseFound with ⟨opening, member, behind, split, suffix⟩
  refine ⟨opening, member, behind, split, ?_⟩
  calc rest
    _ <:+ behindIf := condition?_suffix conditionFound
    _ <:+ atIf := expect?_suffix ifFound
    _ <:+ behindElse := skipSome?_suffix skipped
    _ <:+ behind := suffix

theorem ifHeader_opensWith : ifHeader.OpensWith ["if".toList] := by
  intro before text condition rest found
  rw [ifHeader_at?] at found
  rcases Option.bind_eq_some_iff.1 found with ⟨_, _, afterGuard⟩
  rcases Option.bind_eq_some_iff.1 afterGuard with ⟨behind, ifFound, conditionFound⟩
  exact ⟨_, List.mem_cons_self, behind, expect?_eq_some.1 ifFound,
    condition?_suffix conditionFound⟩

theorem elseHeader_opensWith : elseHeader.OpensWith elseOpenings := by
  intro before text value rest found
  rw [elseHeader_at?] at found
  rcases Option.bind_eq_some_iff.1 found with ⟨behindElse, elseFound, afterElse⟩
  rcases Option.bind_eq_some_iff.1 afterElse with ⟨left, braceFound, result⟩
  rcases else?_eq_some elseFound with ⟨opening, member, behind, split, suffix⟩
  cases result
  refine ⟨opening, member, behind, split, ?_⟩
  calc rest
    _ <:+ skipBlanks behindElse := expect?_suffix braceFound
    _ <:+ behindElse := skipBlanks_suffix behindElse
    _ <:+ behind := suffix

/-! ## What is taken -/

/-- A condition in parentheses and an opening brace, with blanks in front of both. -/
def conditionText (toParen condition toBrace : Text) : Text :=
  toParen ++ ("(".toList ++ (condition ++ (")".toList ++ (toBrace ++ "\x7b".toList))))

/-- No brace is found up to the next closing parenthesis. -/
theorem expect?_brace_eq_none {text : Text} (free : '\x7b' ∉ text) (rest : Text) :
    expect? "\x7b".toList (skipBlanks (text ++ ')' :: rest)) = none := by
  induction text with
  | nil => rfl
  | cons char text ih =>
      have other : char ≠ '\x7b' := by
        rintro rfl
        exact free List.mem_cons_self
      cases blank : isBlank char with
      | true =>
          have skipped : skipBlanks (char :: (text ++ ')' :: rest)) =
              skipBlanks (text ++ ')' :: rest) := List.dropWhile_cons_of_pos blank
          rw [List.cons_append, skipped]
          exact ih fun member => free (List.mem_cons_of_mem char member)
      | false =>
          rw [List.cons_append, skipBlanks_cons_of_solid blank]
          exact expect?_cons_of_ne other [] _

section Taken

variable {toParen condition toBrace rest : Text} (parenBlank : AllBlank toParen)
  (single : '\n' ∉ condition) (free : '\x7b' ∉ condition) (braceBlank : AllBlank toBrace)

include parenBlank single free braceBlank

/-- A condition without braces is found as a whole, whatever parentheses it holds. -/
theorem condition?_append :
    condition? (conditionText toParen condition toBrace ++ rest) = some (condition, rest) := by
  have paren : ∀ text, expect? "(".toList (skipBlanks (toParen ++ ("(".toList ++ text))) =
      some text := by
    intro text
    rw [skipBlanks_append parenBlank]
    rfl
  have brace : expect? "\x7b".toList (skipBlanks (toBrace ++ ("\x7b".toList ++ rest))) =
      some rest := by
    rw [skipBlanks_append braceBlank]
    rfl
  simp only [condition?_eq, conditionText, List.append_assoc, paren, Option.bind_some]
  refine shortest?_append single ?_ (by rw [expect?_append, Option.bind_some, brace])
  intro back nonempty suffix
  cases back with
  | nil => exact absurd rfl nonempty
  | cons char back =>
      by_cases closing : char = ')'
      · -- Behind a parenthesis inside the condition there is another one before the brace.
        subst closing
        have freeBack : '\x7b' ∉ back := fun member =>
          free (suffix.subset (List.mem_cons_of_mem _ member))
        exact expect?_brace_eq_none freeBack _
      · have missing : expect? ")".toList (char :: (back ++ (")".toList ++ (toBrace ++
            ("\x7b".toList ++ rest))))) = none := expect?_cons_of_ne closing [] _
        rw [List.cons_append, missing]
        rfl

/-- A header gives way to its Python header. -/
theorem ifHeader_settles {before : Option Char} (opens : opensWord before = true) :
    ifHeader.Settles (fun condition => .replace ("if ".toList ++ condition ++ ":".toList)) rest
      before ("if".toList ++ conditionText toParen condition toBrace)
      ("if ".toList ++ (condition ++ ":".toList)) := by
  have nonempty : "if".toList ++ conditionText toParen condition toBrace ≠ [] :=
    List.cons_ne_nil _ _
  have found : ifHeader.at? before
      (("if".toList ++ conditionText toParen condition toBrace) ++ rest) =
        some (condition, rest) := by
    rw [ifHeader_at?, guard_of_true opens, List.append_assoc, Option.bind_some, expect?_append]
    exact condition?_append parenBlank single free braceBlank
  rw [← List.append_assoc "if ".toList]
  exact .cons_hit nonempty found rfl

theorem elseIfHeader_settles {toElse toIf : Text} (elseBlank : AllBlank toElse)
    (ifNonempty : toIf ≠ []) (ifBlank : AllBlank toIf) (before : Option Char) :
    elseIfHeader.Settles (fun condition => .replace ("elif ".toList ++ condition ++ ":".toList))
      rest before ("\x7d".toList ++ (toElse ++ ("else".toList ++ (toIf ++ ("if".toList ++
        conditionText toParen condition toBrace)))))
      ("elif ".toList ++ (condition ++ ":".toList)) := by
  have nonempty : "\x7d".toList ++ (toElse ++ ("else".toList ++ (toIf ++ ("if".toList ++
      conditionText toParen condition toBrace)))) ≠ [] := List.cons_ne_nil _ _
  have found : elseIfHeader.at? before
      (("\x7d".toList ++ (toElse ++ ("else".toList ++ (toIf ++ ("if".toList ++
        conditionText toParen condition toBrace))))) ++ rest) = some (condition, rest) := by
    have stop : ∀ char, ("if".toList ++ (conditionText toParen condition toBrace ++ rest)).head? =
        some char → isBlank char = false := by
      intro char first
      cases first
      decide
    simp only [List.append_assoc]
    rw [elseIfHeader_at?, else?_append elseBlank, Option.bind_some,
      skipSome?_append_of_stop ifNonempty ifBlank stop, Option.bind_some, expect?_append]
    exact condition?_append parenBlank single free braceBlank
  rw [← List.append_assoc "elif ".toList]
  exact .cons_hit nonempty found rfl

end Taken

/-- Behind an `else` with a brace there is no condition. -/
theorem elseIfHeader_at?_eq_none {toBrace : Text} (braceBlank : AllBlank toBrace) (rest : Text)
    {before : Option Char} {text : Text}
    (read : ∀ behind, else? before text = some behind →
      behind = toBrace ++ ("\x7b".toList ++ rest)) : elseIfHeader.at? before text = none := by
  rw [elseIfHeader_at?]
  cases found : else? before text with
  | none => rfl
  | some behind =>
      rw [read behind found, Option.bind_some]
      by_cases empty : toBrace = []
      · rw [empty]
        rfl
      · have stop : ∀ char, ("\x7b".toList ++ rest).head? = some char → isBlank char = false := by
          intro char first
          cases first
          decide
        rw [skipSome?_append_of_stop empty braceBlank stop]
        rfl

section Else

variable {toElse toBrace rest : Text} (elseBlank : AllBlank toElse) (braceBlank : AllBlank toBrace)

include elseBlank braceBlank

theorem elseHeader_settles (before : Option Char) :
    elseHeader.Settles (fun _ => .replace "else:".toList) rest before
      ("\x7d".toList ++ (toElse ++ ("else".toList ++ (toBrace ++ "\x7b".toList))))
      "else:".toList := by
  have found : elseHeader.at? before
      (("\x7d".toList ++ (toElse ++ ("else".toList ++ (toBrace ++ "\x7b".toList)))) ++ rest) =
        some ((), rest) := by
    simp only [List.append_assoc]
    rw [elseHeader_at?, else?_append elseBlank, Option.bind_some, skipBlanks_append braceBlank]
    rfl
  exact .cons_hit (List.cons_ne_nil _ _) found rfl

/-- An `else` without a condition is no chained header. -/
theorem elseIfHeader_settles_else {judge : Text → Verdict} (before : Option Char) :
    elseIfHeader.Settles judge rest before
      ("\x7d".toList ++ (toElse ++ ("else".toList ++ (toBrace ++ "\x7b".toList))))
      ("\x7d".toList ++ (toElse ++ ("else".toList ++ (toBrace ++ "\x7b".toList)))) := by
  have visible := elseIfHeader_opensWith.startsVisibly (by decide)
  have guarded : ∀ {before : Option Char} {tail : Option Text} {behind : Text},
      (Option.bind (guard (opensWord before = true)) fun _ => tail) = some behind →
        tail = some behind := by
    intro before tail behind found
    obtain ⟨_, _, read⟩ := Option.bind_eq_some_iff.1 found
    exact read
  -- Neither at the brace nor at the keyword does a condition follow.
  have brace : elseIfHeader.at? before ('\x7d' :: (toElse ++ ("else".toList ++
      (toBrace ++ ("\x7b".toList ++ rest))))) = none := by
    refine elseIfHeader_at?_eq_none braceBlank rest fun behind found => ?_
    have read := else?_append elseBlank before (toBrace ++ ("\x7b".toList ++ rest))
    exact Option.some.inj (found.symm.trans read)
  have keyword : ∀ before, elseIfHeader.at? before
      ('e' :: 'l' :: 's' :: 'e' :: (toBrace ++ ("\x7b".toList ++ rest))) = none := fun before =>
    elseIfHeader_at?_eq_none braceBlank rest fun behind found =>
      (Option.some.inj (guarded found)).symm
  have opening : ∀ before, elseIfHeader.at? before ('\x7b' :: rest) = none := fun before =>
    elseIfHeader_at?_eq_none braceBlank rest fun behind found => nomatch guarded found
  have otherwise : ∀ before, elseIfHeader.Settles judge rest before
      ('e' :: 'l' :: 's' :: 'e' :: (toBrace ++ ['\x7b']))
      ('e' :: 'l' :: 's' :: 'e' :: (toBrace ++ ['\x7b'])) := by
    intro before
    refine .gap ?_ (.gap rfl (.gap rfl (.gap rfl ?_)))
    · rw [List.cons_append, List.cons_append, List.cons_append, List.append_assoc]
      exact keyword before
    · exact .append (.of_blank visible braceBlank _) (.gap (opening _) .nil)
  change elseIfHeader.Settles judge rest before
    ('\x7d' :: (toElse ++ ('e' :: 'l' :: 's' :: 'e' :: (toBrace ++ ['\x7b']))))
    ('\x7d' :: (toElse ++ ('e' :: 'l' :: 's' :: 'e' :: (toBrace ++ ['\x7b']))))
  refine .gap ?_ (.append (.of_blank visible elseBlank _) (otherwise _))
  rw [List.append_assoc, List.cons_append, List.cons_append, List.cons_append, List.cons_append,
    List.append_assoc]
  exact brace

end Else

/-- The header of a chained branch is no header of a branch of its own. -/
theorem ifHeader_settles_elif {judge : Text → Verdict} {text rest : Text}
    (absent : ¬"if".toList <:+: text) (closes : ClosesLine rest) (before : Option Char) :
    ifHeader.Settles judge rest before ('e' :: 'l' :: 'i' :: 'f' :: text)
      ('e' :: 'l' :: 'i' :: 'f' :: text) := by
  have first : ifHeader.at? before ('e' :: 'l' :: 'i' :: 'f' :: (text ++ rest)) = none := by
    apply ifHeader_opensWith.at?_eq_none
    intro opening member starts
    rw [List.mem_singleton.1 member] at starts
    cases (List.cons_prefix_cons.1 starts).1
  have second : ifHeader.at? (some 'e') ('l' :: 'i' :: 'f' :: (text ++ rest)) = none := rfl
  have third : ifHeader.at? (some 'l') ('i' :: 'f' :: (text ++ rest)) = none := rfl
  have fourth : ifHeader.at? (some 'i') ('f' :: (text ++ rest)) = none := rfl
  apply Recognizer.Settles.gap first
  apply Recognizer.Settles.gap second
  apply Recognizer.Settles.gap third
  apply Recognizer.Settles.gap fourth
  apply ifHeader_opensWith.settles (by decide) _ closes
  intro opening member
  rwa [List.mem_singleton.1 member]

/-- A closing brace in front of no `else` is left alone. -/
theorem else?_close {before : Option Char} {rest : Text}
    (noElse : ¬"else".toList <+: skipBlanks rest) : else? before ('\x7d' :: rest) = none := by
  cases found : expect? "else".toList (skipBlanks rest) with
  | none => exact found
  | some behind => exact absurd ⟨behind, (expect?_eq_some.1 found).symm⟩ noElse

/-- The line ends here, and no `else` comes next. -/
def NoElseBehind (rest : Text) : Prop :=
  ClosesLine rest ∧ ¬"else".toList <+: skipBlanks rest

theorem noElseBehind_nil : NoElseBehind [] :=
  ⟨closesLine_nil, nofun⟩

section Close

variable {before : Option Char} {rest : Text}

/-- A line that does not start with an `else` goes on with no branch from the line above. -/
theorem NoElseBehind.newline_append {indent text : Text} (behind : NoElseBehind rest)
    (blank : AllBlank indent) (solid : StartsSolid text) (noElse : ¬"else".toList <+: text) :
    NoElseBehind ('\n' :: (indent ++ text ++ rest)) := by
  have newlineBlank : AllBlank ('\n' :: indent) :=
    allBlank_append (show AllBlank ['\n'] by decide) blank
  have skipped : skipBlanks ('\n' :: (indent ++ text ++ rest)) = skipBlanks (text ++ rest) := by
    rw [List.append_assoc]
    exact skipBlanks_append newlineBlank _
  refine ⟨closesLine_newline _, ?_⟩
  rw [skipped]
  -- An empty line hands on what is known about the lines below it.
  by_cases empty : text = []
  · rw [empty]
    exact behind.2
  · rw [(solid.append empty).skipBlanks_eq]
    intro starts
    exact noElse (behind.1.isPrefix_of_isPrefix_append (by decide) starts)

/-- A closing brace alone on a line is no part of a chained header. -/
theorem elseIfHeader_settles_close {judge : Text → Verdict} (behind : NoElseBehind rest) :
    elseIfHeader.Settles judge rest before "\x7d".toList "\x7d".toList := by
  have missing : elseIfHeader.at? before ('\x7d' :: rest) = none := by
    rw [elseIfHeader_at?, else?_close behind.2]
    rfl
  exact .gap missing .nil

theorem elseHeader_settles_close {judge : Unit → Verdict} (behind : NoElseBehind rest) :
    elseHeader.Settles judge rest before "\x7d".toList "\x7d".toList := by
  have missing : elseHeader.at? before ('\x7d' :: rest) = none := by
    rw [elseHeader_at?, else?_close behind.2]
    rfl
  exact .gap missing .nil

end Close

end Offside
