import Mathlib.Data.List.Induction
import Offside.Proofs.Layout.Delimiters

/-!
# Braces that are dropped and braces that are counted

A line is set without its bare braces, and the opening ones among them are counted. Both are
decided character by character, by the position behind what stands in front, so that an opening
brace is either kept or counted. What is left has no bare brace, and literals that are closed do not
reach into what follows.

Two scanners go through the line, each with the quote that is open and a flag for the backslash, and
gather the one and the other. Behind every character both are in the state of its position.
-/

namespace Offside

/-- Whether a character is a brace, wherever it stands. -/
def isBrace (char : Char) : Bool :=
  char = '\x7b' || char = '\x7d'

theorem isBareBrace_eq (char : Char) (here : Quoting) :
    isBareBrace (char, here) = (decide (here = .outside) && isBrace char) := rfl

/-! ## One more character -/

theorem dropBraces_concat (line : Text) (char : Char) :
    dropBraces (line ++ [char]) =
      dropBraces line ++ if isBareBrace (char, Quoting.outside.after line) then [] else [char] := by
  cases bare : isBareBrace (char, Quoting.outside.after line) <;> simp [dropBraces, bare]

theorem openBraces_concat (line : Text) (char : Char) :
    openBraces (line ++ [char]) = openBraces line +
      if isBareBrace (char, Quoting.outside.after line) ∧ char = '\x7b' then 1 else 0 := by
  have opens : (isBareBrace (char, Quoting.outside.after line) ∧ char = '\x7b') ↔
      Quoting.outside.after line = .outside ∧ char = '\x7b' := by
    simp only [isBareBrace_eq, isBrace, Bool.and_eq_true, Bool.or_eq_true, decide_eq_true_eq]
    tauto
  simp [openBraces, opens, List.countP_cons]

/-! ## Scanners with a flag -/

/-- What a scanner knows: the quote that is open, whether a backslash stands in front, and what has
been gathered. -/
structure Scanner (α : Type) where
  quote : Option Char := none
  escaped : Bool := false
  gathered : α

/-- A scanner at a position. -/
def Quoting.scanner {α : Type} (gathered : α) : Quoting → Scanner α
  | outside => { gathered }
  | inside mark => { quote := some mark, gathered }
  | escaped mark => { quote := some mark, escaped := true, gathered }

theorem Quoting.gathered_scanner {α : Type} (here : Quoting) (gathered : α) :
    (here.scanner gathered).gathered = gathered := by
  cases here <;> rfl

/-- Gather a character, unless it is a brace and no quote is open. -/
def stripStep (scanner : Scanner Text) (char : Char) : Scanner Text :=
  let gathered := scanner.gathered ++ [char]
  if scanner.escaped then
    { scanner with escaped := false, gathered }
  else
    match scanner.quote with
    | none =>
        if char = '\x7b' ∨ char = '\x7d' then scanner
        else if char = '\x22' ∨ char = '\x27' then { scanner with quote := some char, gathered }
        else { scanner with gathered }
    | some mark =>
        if char = '\\' then { scanner with escaped := true, gathered }
        else if char = mark then { scanner with quote := none, gathered }
        else { scanner with gathered }

/-- Count a character, if it is an opening brace and no quote is open. -/
def countStep (scanner : Scanner Nat) (char : Char) : Scanner Nat :=
  if scanner.escaped then
    { scanner with escaped := false }
  else
    match scanner.quote with
    | none =>
        if char = '\x7b' then { scanner with gathered := scanner.gathered + 1 }
        else if char = '\x22' ∨ char = '\x27' then { scanner with quote := some char }
        else scanner
    | some mark =>
        if char = '\\' then { scanner with escaped := true }
        else if char = mark then { scanner with quote := none }
        else scanner

theorem Quoting.next_outside (char : Char) :
    outside.next char = if char = '\x22' ∨ char = '\x27' then inside char else outside := by
  have marks : char ∈ quoteMarks ↔ char = '\x22' ∨ char = '\x27' := by simp [quoteMarks]
  simp only [next, marks]

/-- A brace opens no literal. -/
theorem not_quote_of_brace {char : Char} (brace : char = '\x7b' ∨ char = '\x7d') :
    ¬(char = '\x22' ∨ char = '\x27') := by
  rcases brace with rfl | rfl <;> decide

theorem stripStep_scanner (here : Quoting) (kept : Text) (char : Char) :
    stripStep (here.scanner kept) char =
      (here.next char).scanner (kept ++ if isBareBrace (char, here) then [] else [char]) := by
  cases here with
  | outside =>
      rw [Quoting.next_outside]
      by_cases brace : char = '\x7b' ∨ char = '\x7d'
      · simp [stripStep, Quoting.scanner, isBareBrace, brace, not_quote_of_brace brace]
      · by_cases quote : char = '\x22' ∨ char = '\x27' <;>
          simp [stripStep, Quoting.scanner, isBareBrace, brace, quote]
  | inside mark =>
      by_cases backslash : char = '\\'
      · simp [stripStep, Quoting.scanner, Quoting.next, isBareBrace, backslash]
      · by_cases closes : char = mark
        · subst closes
          simp [stripStep, Quoting.scanner, Quoting.next, isBareBrace, backslash]
        · simp [stripStep, Quoting.scanner, Quoting.next, isBareBrace, backslash, closes]
  | escaped mark => simp [stripStep, Quoting.scanner, Quoting.next, isBareBrace]

theorem countStep_scanner (here : Quoting) (opened : Nat) (char : Char) :
    countStep (here.scanner opened) char =
      (here.next char).scanner
        (opened + if isBareBrace (char, here) ∧ char = '\x7b' then 1 else 0) := by
  cases here with
  | outside =>
      rw [Quoting.next_outside]
      by_cases opens : char = '\x7b'
      · simp [countStep, Quoting.scanner, isBareBrace, opens]
      · by_cases quote : char = '\x22' ∨ char = '\x27' <;>
          simp [countStep, Quoting.scanner, isBareBrace, opens, quote]
  | inside mark =>
      by_cases backslash : char = '\\'
      · simp [countStep, Quoting.scanner, Quoting.next, isBareBrace, backslash]
      · by_cases closes : char = mark
        · subst closes
          simp [countStep, Quoting.scanner, Quoting.next, isBareBrace, backslash]
        · simp [countStep, Quoting.scanner, Quoting.next, isBareBrace, backslash, closes]
  | escaped mark => simp [countStep, Quoting.scanner, Quoting.next, isBareBrace]

/-- A scanner that gathers a character by its position, as a result over lines does with one more
character, is behind a line at its position and has gathered the result. -/
theorem foldl_scanner {α : Type} {step : Scanner α → Char → Scanner α}
    {gather : α → Char → Quoting → α} {result : Text → α}
    (step_scanner : ∀ (here : Quoting) gathered char,
      step (here.scanner gathered) char = (here.next char).scanner (gather gathered char here))
    (result_concat : ∀ line char,
      result (line ++ [char]) = gather (result line) char (Quoting.outside.after line))
    (line : Text) :
    line.foldl step { gathered := result [] } =
      (Quoting.outside.after line).scanner (result line) := by
  induction line using List.reverseRecOn with
  | nil => rfl
  | append_singleton line char ih =>
      rw [List.foldl_append, ih, List.foldl_cons, List.foldl_nil, step_scanner,
        Quoting.after_append, result_concat]
      rfl

theorem foldl_stripStep (line : Text) :
    line.foldl stripStep { gathered := [] } =
      (Quoting.outside.after line).scanner (dropBraces line) :=
  foldl_scanner stripStep_scanner dropBraces_concat line

theorem foldl_countStep (line : Text) :
    line.foldl countStep { gathered := 0 } =
      (Quoting.outside.after line).scanner (openBraces line) :=
  foldl_scanner countStep_scanner openBraces_concat line

/-! ## Whole lines -/

/-- An opening brace is kept or counted, and not both. -/
theorem count_dropBraces_add_openBraces (line : Text) :
    (dropBraces line).count '\x7b' + openBraces line = line.count '\x7b' := by
  induction line using List.reverseRecOn with
  | nil => rfl
  | append_singleton line char ih =>
      rw [dropBraces_concat, openBraces_concat, List.count_append, List.count_append, ← ih]
      -- One look at the position decides both, so it does not matter what it says.
      generalize isBareBrace (char, Quoting.outside.after line) = bare
      have step : List.count '\x7b' (if bare then [] else [char]) +
          (if bare ∧ char = '\x7b' then 1 else 0) = [char].count '\x7b' := by
        cases bare with
        | false => simp
        | true => by_cases opens : char = '\x7b' <;> simp [opens]
      omega

/-- Nothing but braces is dropped. -/
theorem filter_dropBraces (line : Text) :
    (dropBraces line).filter (!isBrace ·) = line.filter (!isBrace ·) := by
  induction line using List.reverseRecOn with
  | nil => rfl
  | append_singleton line char ih =>
      rw [dropBraces_concat, List.filter_append, List.filter_append, ih]
      cases bare : isBareBrace (char, Quoting.outside.after line) with
      | false => rfl
      | true =>
          rw [isBareBrace_eq, Bool.and_eq_true] at bare
          simp [bare.2]

/-- Each scanner computes its own result, what is left of a line and how many braces it opens. The
braces that are dropped and those that are counted are told from the others in the same way: by the
position behind what stands in front. So an opening brace is either kept or counted, nothing but
braces is dropped, and a second time nothing is dropped or counted. Behind a text that closes its
literals both start anew. -/
theorem bareBraces_agree :
    (∀ line : Text,
      (line.foldl stripStep { gathered := [] }).gathered = dropBraces line ∧
        (line.foldl countStep { gathered := 0 }).gathered = openBraces line) ∧
    (∀ line char,
      dropBraces (line ++ [char]) = dropBraces line ++
          (if isBareBrace (char, Quoting.outside.after line) then [] else [char]) ∧
        openBraces (line ++ [char]) = openBraces line +
          if isBareBrace (char, Quoting.outside.after line) ∧ char = '\x7b' then 1 else 0) ∧
    (∀ line : Text,
      line.count '\x7b' = (dropBraces line).count '\x7b' + openBraces line ∧
        dropBraces (dropBraces line) = dropBraces line ∧ openBraces (dropBraces line) = 0 ∧
        (dropBraces line).Sublist line ∧
        (dropBraces line).filter (!isBrace ·) = line.filter (!isBrace ·)) ∧
    ∀ left right, Quoting.outside.after left = .outside →
      dropBraces (left ++ right) = dropBraces left ++ dropBraces right ∧
        openBraces (left ++ right) = openBraces left + openBraces right := by
  refine ⟨?_, fun line char => ⟨dropBraces_concat line char, openBraces_concat line char⟩, ?_, ?_⟩
  · intro line
    rw [foldl_stripStep, foldl_countStep]
    exact ⟨Quoting.gathered_scanner _ _, Quoting.gathered_scanner _ _⟩
  · intro line
    have unbraced := unbraced_dropBraces line
    exact ⟨(count_dropBraces_add_openBraces line).symm, unbraced.dropBraces_eq,
      unbraced.openBraces_eq, dropBraces_sublist line, filter_dropBraces line⟩
  · intro left right closed
    exact ⟨dropBraces_append closed right, openBraces_append closed right⟩

/-- Braces in a literal with an escaped quote and in one with the other quote, and a bare one. -/
def closedLiterals : Text :=
  "f(\"\x7b\\\"'\x7d\", '\x7b') \x7b".toList

/-- A bare brace, and braces in a literal that is never closed. -/
def openLiteral : Text :=
  "\x7d g \x7b '\x7b\x7d\"".toList

theorem bareBraces_agree_closedLiterals :
    Quoting.outside.after closedLiterals = .outside ∧
      dropBraces (closedLiterals ++ openLiteral) =
        "f(\"\x7b\\\"'\x7d\", '\x7b')  g  '\x7b\x7d\"".toList ∧
      openBraces (closedLiterals ++ openLiteral) = 2 := by
  have closed : Quoting.outside.after closedLiterals = .outside := by decide
  obtain ⟨dropped, counted⟩ := bareBraces_agree.2.2.2 closedLiterals openLiteral closed
  refine ⟨closed, ?_, ?_⟩
  · rw [dropped]
    decide
  · rw [counted]
    decide

end Offside
