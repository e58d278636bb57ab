import Offside.Proofs.Declaration.Commas
import Offside.Proofs.Spelling
import Offside.Proofs.Text.Lines

/-!
# Splitting declarations

A declaration of several variables on one line becomes one assignment for each of them, in the
same order and behind the same indentation. Commas in calls, in brackets and in literals belong to
the initial values, which are copied as they are.
-/

namespace Offside

/-! ## Balanced texts -/

namespace Quoting

/-- What a character adds to the parentheses and brackets that are open. -/
def opening (here : Quoting) (char : Char) : Int :=
  if here ≠ .outside then 0
  else if char = '(' ∨ char = '[' then 1
  else if char = ')' ∨ char = ']' then -1
  else 0

/-- The parentheses and brackets outside literals that a text opens, less those that it closes. -/
def openings : (here : Quoting) → Text → Int
  | _, [] => 0
  | here, char :: rest => here.opening char + (here.next char).openings rest

theorem depthBehind_eq {here : Quoting} {depth : Nat} {char : Char}
    (opened : 0 ≤ depth + here.opening char) :
    (here.depthBehind depth char : Int) = depth + here.opening char := by
  simp only [depthBehind, opening] at opened ⊢
  split_ifs at opened ⊢ <;> omega

section Opened

variable {here : Quoting} {depth : Nat} {text : Text}
  (opened : ∀ front, front <+: text → 0 ≤ depth + here.openings front)
include opened

/-- Where nothing is closed that has not been opened, the depth is the number of open marks. -/
theorem depthAfter_eq : (here.depthAfter depth text : Int) = depth + here.openings text := by
  induction text generalizing here depth with
  | nil => simp [depthAfter, openings]
  | cons char rest ih =>
      have atChar := depthBehind_eq (by simpa [openings] using opened [char] (by simp))
      have tail : ((here.next char).depthAfter (here.depthBehind depth char) rest : Int) =
          here.depthBehind depth char + (here.next char).openings rest := by
        apply ih
        intro front inRest
        have atFront := opened (char :: front) (by simpa using inRest)
        rw [openings] at atFront
        omega
      rw [depthAfter, openings, tail, atChar]
      omega

theorem unbroken_of_opened
    (apart : ∀ front, front ++ [','] <+: text → here.after front = .outside →
      0 < depth + here.openings front) : here.Unbroken depth text := by
  induction text generalizing here depth with
  | nil => exact trivial
  | cons char rest ih =>
      have atChar := depthBehind_eq (by simpa [openings] using opened [char] (by simp))
      constructor
      · rintro ⟨rfl, rfl, rfl⟩
        simpa [openings] using apart [] (by simp) rfl
      · apply ih
        · intro front inRest
          have atFront := opened (char :: front) (by simpa using inRest)
          rw [openings] at atFront
          omega
        · intro front inRest outside
          have atFront := apart (char :: front) (by simpa using inRest) outside
          rw [openings] at atFront
          omega

end Opened

end Quoting

/-! ## Declarators -/

/-- An initial value: parentheses and brackets are balanced, literals are closed, and there is no
comma outside them. -/
structure Initializer where
  text : Text
  nonempty : text ≠ []
  trimmed : trim text = text
  single : '\n' ∉ text
  quoted : Quoting.outside.after text = .outside
  opened : ∀ front ∈ text.inits, 0 ≤ Quoting.outside.openings front
  balanced : Quoting.outside.openings text = 0
  apart : ∀ front ∈ text.inits, front ++ [','] ∈ text.inits →
    Quoting.outside.after front = .outside → 0 < Quoting.outside.openings front

namespace Initializer

variable (initializer : Initializer)

theorem opened_of_isPrefix (front : Text) (starts : front <+: initializer.text) :
    0 ≤ ((0 : Nat) : Int) + Quoting.outside.openings front := by
  simpa using initializer.opened front ((List.mem_inits _ _).2 starts)

theorem isPart : IsPart initializer.text := by
  apply Quoting.unbroken_of_opened initializer.opened_of_isPrefix
  intro front starts outside
  have atFront := initializer.apart front
    ((List.mem_inits _ _).2 ((List.prefix_append front [',']).trans starts))
    ((List.mem_inits _ _).2 starts) outside
  simpa using atFront

theorem closed : Closed initializer.text where
  quoting := initializer.quoted
  depth := by
    have depth := Quoting.depthAfter_eq initializer.opened_of_isPrefix
    rw [initializer.balanced] at depth
    omega

end Initializer

/-- A variable and its initial value, if it has one. -/
structure Declarator where
  name : Identifier
  initial : Option Initializer

namespace Declarator

/-- A declarator as it is declared. -/
def text (declarator : Declarator) : Text :=
  match declarator.initial with
  | none => declarator.name.text
  | some initial => declarator.name.text ++ (" = ".toList ++ initial.text)

/-- A declarator as it is assigned. -/
def assigned (indent : Text) (declarator : Declarator) : Text :=
  indent ++ declarator.name.text ++ " = ".toList ++
    (declarator.initial.map Initializer.text).getD noValue.toList

variable (declarator : Declarator)

theorem isToken : IsToken declarator.text := by
  obtain ⟨name, initial⟩ := declarator
  cases initial with
  | none => exact name.isToken
  | some initial =>
      obtain ⟨_, ends⟩ := trim_eq_self_iff.1 initial.trimmed
      constructor
      · simp [text, name.nonempty]
      · exact name.isToken.starts.append name.nonempty
      · exact (ends.append initial.nonempty).append (by simp)

theorem newline_notMem : '\n' ∉ declarator.text := by
  obtain ⟨name, initial⟩ := declarator
  have inName : '\n' ∉ name.text := name.notMem (by decide)
  cases initial with
  | none => exact inName
  | some initial => simp [text, inName, initial.single]

/-- A name holds none of the marks that the scanner looks for. -/
theorem name_plain : ∀ char ∈ declarator.name.text, char ∉ cutMarks := by
  have outside : ∀ mark ∈ cutMarks, isIdentifierChar mark = false := by decide
  intro char inName isMark
  exact declarator.name.notMem (outside char isMark) inName

theorem isPart : IsPart declarator.text := by
  have namePart := isPart_of_plain declarator.name_plain
  have nameClosed := closed_of_plain declarator.name_plain
  have signPlain : ∀ char ∈ " = ".toList, char ∉ cutMarks := by decide
  rw [text]
  cases declarator.initial with
  | none => exact namePart
  | some initial =>
      apply namePart.append nameClosed
      exact (isPart_of_plain signPlain).append (closed_of_plain signPlain) initial.isPart

theorem closed : Closed declarator.text := by
  have nameClosed := closed_of_plain declarator.name_plain
  have signPlain : ∀ char ∈ " = ".toList, char ∉ cutMarks := by decide
  rw [text]
  cases declarator.initial with
  | none => exact nameClosed
  | some initial => exact nameClosed.append ((closed_of_plain signPlain).append initial.closed)

/-- A declarator is assigned what it is declared with, and `None` if there is nothing. -/
theorem assignment_text (indent : Text) :
    assignment indent declarator.text = declarator.assigned indent := by
  obtain ⟨name, initial⟩ := declarator
  cases initial with
  | none =>
      have noSign : '=' ∉ name.text := name.notMem (by decide)
      simp [assignment, text, assigned, noSign]
  | some initial => simp [assignment, text, assigned]

theorem newline_notMem_assigned {indent : Text} (isGap : IsGap indent) :
    '\n' ∉ declarator.assigned indent := by
  obtain ⟨name, initial⟩ := declarator
  have inName : '\n' ∉ name.text := name.notMem (by decide)
  have inIndent := isGap.newline_notMem
  cases initial with
  | none => simp [assigned, inName, inIndent, noValue]
  | some initial => simp [assigned, inName, inIndent, initial.single]

end Declarator

/-! ## Lists of declarators -/

theorem joinWith_cons_append (separator front text : Text) (others : List Text) :
    joinWith separator ((front ++ text) :: others) =
      front ++ joinWith separator (text :: others) := by
  cases others <;> simp [joinWith]

/-- A part of the separator can as well be written in front of the texts behind it. -/
theorem joinWith_append_separator (left right text : Text) (others : List Text) :
    joinWith (left ++ right) (text :: others) =
      joinWith left (text :: others.map (right ++ ·)) := by
  induction others generalizing text with
  | nil => rfl
  | cons next rest ih =>
      have here := ih next
      simp [joinWith, joinWith_cons_append, here]

/-- The declarators of a declaration, as they are declared. -/
def declaratorList (declarators : List Declarator) : Text :=
  joinWith ", ".toList (declarators.map Declarator.text)

theorem declaratorList_isToken {declarators : List Declarator} (nonempty : declarators ≠ []) :
    IsToken (declaratorList declarators) := by
  induction declarators with
  | nil => exact absurd rfl nonempty
  | cons declarator others ih =>
      cases others with
      | nil => exact declarator.isToken
      | cons next rest =>
          have first := declarator.isToken
          have tail := ih (List.cons_ne_nil next rest)
          have joined : declaratorList (declarator :: next :: rest) =
              declarator.text ++ (", ".toList ++ declaratorList (next :: rest)) := by
            simp [declaratorList, joinWith]
          rw [joined]
          constructor
          · simp [first.nonempty]
          · exact first.starts.append first.nonempty
          · exact (tail.ends.append tail.nonempty).append (by simp)

theorem comma_eq : ", ".toList = [','] ++ [' '] := rfl

/-- Declarators are parts, and so they are behind the blank of a separator. -/
theorem isPart_and_closed (first : Declarator) (others : List Declarator) {part : Text}
    (member : part ∈ first.text :: (others.map Declarator.text).map ([' '] ++ ·)) :
    IsPart part ∧ Closed part := by
  have blank : ∀ char ∈ [' '], char ∉ cutMarks := by decide
  simp only [List.map_map, List.mem_cons, List.mem_map, Function.comp] at member
  rcases member with rfl | ⟨declarator, _, rfl⟩
  · exact ⟨first.isPart, first.closed⟩
  · exact ⟨(isPart_of_plain blank).append (closed_of_plain blank) declarator.isPart,
      (closed_of_plain blank).append declarator.closed⟩

/-- Each declarator becomes an assignment. -/
theorem assignments_declaratorList (indent : Text) {declarators : List Declarator}
    (nonempty : declarators ≠ []) :
    assignments indent (declaratorList declarators) =
      unlines (declarators.map (Declarator.assigned indent)) := by
  obtain ⟨first, others, rfl⟩ := List.exists_cons_of_ne_nil nonempty
  -- The blank behind a comma stands in front of the next part, where it is trimmed off.
  have blank : AllBlank [' '] := by decide
  have split : splitCommas (declaratorList (first :: others)) =
      first.text :: (others.map Declarator.text).map ([' '] ++ ·) := by
    rw [declaratorList, List.map_cons, comma_eq, joinWith_append_separator]
    apply splitCommas_joinWith (List.cons_ne_nil _ _)
    · intro part member
      exact (isPart_and_closed first others member).1
    · intro part member
      exact (isPart_and_closed first others (List.mem_of_mem_dropLast member)).2
  have trimmed : ∀ declarator : Declarator, trim declarator.text = declarator.text :=
    fun declarator => trim_eq_self declarator.isToken.starts declarator.isToken.ends
  have trimmedBehind : ∀ declarator : Declarator, trim (' ' :: declarator.text) = declarator.text :=
    fun declarator => (trim_append_left blank declarator.text).trans (trimmed declarator)
  have trimmedParts : (splitCommas (declaratorList (first :: others))).map trim =
      (first :: others).map Declarator.text := by
    simp [split, trimmed, trimmedBehind]
  have nonemptyParts : ((first :: others).map Declarator.text).filter (· ≠ []) =
      (first :: others).map Declarator.text := by
    rw [List.filter_eq_self]
    simp [Declarator.isToken _ |>.nonempty]
  rw [assignments, trimmedParts, nonemptyParts, List.map_map, unlines]
  apply congrArg (joinWith ['\n'])
  apply List.map_congr_left
  intro declarator _
  exact declarator.assignment_text indent

/-! ## Lines -/

/-- A text that starts with a declared type is neither the header of a class nor the one of an
entry point. -/
structure OpensDeclaration (text behind : Text) : Prop where
  starts : ∀ char, text.head? = some char → isTabOrSpace char = false
  noClass : expect? "class".toList (skipModifier "final" (skipModifier "public" text)) = none
  noMain : expect? "static".toList (skipModifier "public" text) = none
  typed : behindType? (skipModifier "final" text) = some behind

namespace OpensDeclaration

variable {indent text behind : Text} (isGap : IsGap indent)
include isGap

theorem respellLine_eq (opens : OpensDeclaration text behind) {line : Text}
    (respelled : respell line = indent ++ text) :
    respellLine line = respellDeclaration (indent ++ text) := by
  have noClass : afterClass? (indent ++ text) = none := by
    rw [afterClass?_eq, dropWhile_append_of_stop isGap opens.starts, opens.noClass]
    rfl
  have noMain : afterMain? (indent ++ text) = none := by
    rw [afterMain?_eq, dropWhile_append_of_stop isGap opens.starts, opens.noMain]
    rfl
  rw [Offside.respellLine_eq, respelled, withoutClass, noClass, Option.getD_none, withoutMain, noMain,
    Option.getD_none]

theorem ofLine?_eq {declarators : Text} (opens : OpensDeclaration text (' ' :: declarators))
    (isToken : IsToken declarators) :
    Declaration.ofLine? (indent ++ text) = some { indent, declarators } := by
  have long : 2 ≤ (' ' :: declarators).length :=
    Nat.succ_le_succ (List.length_pos_iff.2 isToken.nonempty)
  have blank : IsGap [' '] := by decide
  have dropped : ([' '] ++ declarators).dropWhile isTabOrSpace = declarators :=
    dropWhile_append_of_stop blank isToken.starts.isTabOrSpace_eq_false
  have trimmed : trimEnd ((' ' :: declarators).dropWhile isTabOrSpace) = declarators :=
    (congrArg trimEnd dropped).trans isToken.ends.trimEnd_eq
  rw [Declaration.ofLine?_eq, takeWhile_append_of_stop isGap opens.starts,
    dropWhile_append_of_stop isGap opens.starts, opens.typed, Option.bind_some, guard_of_true long,
    trimmed]
  rfl

end OpensDeclaration

/-- What stands in front of the declarators of a declaration. -/
def declarationHead (constant : Bool) (type : String) : Text :=
  (if constant then "final ".toList else []) ++ type.toList

theorem declarationHead_opens {type : String} (declared : type ∈ declaredTypes) (constant : Bool)
    (declarators : Text) :
    OpensDeclaration (declarationHead constant type ++ ' ' :: declarators) (' ' :: declarators) := by
  simp only [declaredTypes, List.mem_cons, List.not_mem_nil, or_false] at declared
  rcases declared with rfl | rfl | rfl | rfl | rfl | rfl | rfl | rfl | rfl <;>
    cases constant <;> exact ⟨fun _ first => by cases first; rfl, rfl, rfl, rfl⟩

/-- A line with a declaration, in front of its terminator. -/
def declarationLine (indent : Text) (constant : Bool) (type : String)
    (declarators : List Declarator) : Text :=
  indent ++ (declarationHead constant type ++ ' ' :: declaratorList declarators)

/-- A terminator at the end of a line disappears if nothing else on the line is respelled. -/
theorem respell_terminated {line : Text}
    (plain : ∀ spelling ∈ spellings, ¬spelling.1.toList <:+: line) :
    respell (line ++ ";".toList) = line := by
  have table : spellings = spellings.take 6 ++ (";", "") :: spellings.drop 7 := rfl
  have listed : (";", "") ∈ spellings := by decide
  have mark : ";".toList = [';'] := rfl
  have unended : ';' ∉ line := by
    intro member
    obtain ⟨front, back, rfl⟩ := List.append_of_mem member
    exact plain (";", "") listed ⟨front, back, by simp⟩
  have apart : ∀ spelling ∈ spellings.take 6, ';' ∉ spelling.1.toList := by decide
  have nothingBehind : ¬[';'] <:+: ([] : Text) := by decide
  have once := respell_of_once table mark unended nothingBehind
  rw [List.append_nil, List.append_nil] at once
  apply once
  · intro spelling member
    apply not_isInfix_append_cons (apart spelling member)
    · exact plain spelling (List.mem_of_mem_take member)
    · intro occurs
      have empty := List.eq_nil_of_infix_nil occurs
      exact spellings_ne_nil spelling (List.mem_of_mem_take member) empty
  · intro spelling member
    exact plain spelling (List.mem_of_mem_drop member)

theorem newline_notMem_declarationLine {indent : Text} (isGap : IsGap indent) (constant : Bool)
    {type : String} (declared : type ∈ declaredTypes) (declarators : List Declarator) :
    '\n' ∉ declarationLine indent constant type declarators := by
  have inIndent := isGap.newline_notMem
  have inHead : '\n' ∉ declarationHead constant type := by
    revert type
    cases constant <;> decide
  have inList : '\n' ∉ declaratorList declarators := by
    intro member
    rcases mem_of_mem_joinWith member with inSeparator | ⟨text, isText, inText⟩
    · revert inSeparator
      decide
    · obtain ⟨declarator, _, rfl⟩ := List.mem_map.1 isText
      exact declarator.newline_notMem inText
  simp [declarationLine, inIndent, inHead, inList]

/-- A declaration of any number of variables becomes as many lines, each of them with the
assignment of one variable. -/
theorem lines_convertSpelling_declarationLine {indent : Text} (isGap : IsGap indent)
    (constant : Bool) {type : String} (declared : type ∈ declaredTypes)
    {declarators : List Declarator} (nonempty : declarators ≠ [])
    (plain : ∀ spelling ∈ spellings,
      ¬spelling.1.toList <:+: declarationLine indent constant type declarators) :
    lines (convertSpelling (declarationLine indent constant type declarators ++ ";".toList)) =
      declarators.map (Declarator.assigned indent) := by
  have opens := declarationHead_opens declared constant (declaratorList declarators)
  have single : '\n' ∉ declarationLine indent constant type declarators ++ ";".toList := by
    simp [newline_notMem_declarationLine isGap constant declared declarators]
  have read := opens.ofLine?_eq isGap (declaratorList_isToken nonempty)
  have respelled : respellLine (declarationLine indent constant type declarators ++ ";".toList) =
      unlines (declarators.map (Declarator.assigned indent)) := by
    refine (opens.respellLine_eq isGap (respell_terminated plain)).trans ?_
    rw [respellDeclaration, read, Option.map_some, Option.getD_some, Declaration.render,
      assignments_declaratorList indent nonempty]
  rw [convertSpelling, lines_of_notMem single, List.map_singleton, unlines_singleton, respelled]
  apply lines_unlines (by simpa using nonempty)
  intro line member
  obtain ⟨declarator, _, rfl⟩ := List.mem_map.1 member
  exact declarator.newline_notMem_assigned isGap

/-- Three variables of one type, with commas in a call, in a literal and in brackets. -/
def mixedDeclarators : List Declarator :=
  [{ name := ⟨"text".toList, by decide, fun _ first => by cases first; decide, by decide⟩
     initial := some ⟨"pick(1, \"a, \\\" (\")".toList, by decide, by decide, by decide, by decide,
       by decide, by decide, by decide⟩ },
   { name := ⟨"n_2".toList, by decide, fun _ first => by cases first; decide, by decide⟩
     initial := none },
   { name := ⟨"last".toList, by decide, fun _ first => by cases first; decide, by decide⟩
     initial := some ⟨"a[f(x, 2)] == ',' ? b : c".toList, by decide, by decide, by decide, by decide,
       by decide, by decide, by decide⟩ }]

theorem lines_convertSpelling_declarationLine_mixed :
    lines (convertSpelling
        "\t final String text = pick(1, \"a, \\\" (\"), n_2, last = a[f(x, 2)] == ',' ? b : c;".toList) =
      ["\t text = pick(1, \"a, \\\" (\")".toList, "\t n_2 = None".toList,
        "\t last = a[f(x, 2)] == ',' ? b : c".toList] := by
  have isGap : IsGap "\t ".toList := by decide
  have declared : "String" ∈ declaredTypes := by decide
  have nonempty : mixedDeclarators ≠ [] := List.cons_ne_nil _ _
  have plain : ∀ spelling ∈ spellings,
      ¬spelling.1.toList <:+: declarationLine "\t ".toList true "String" mixedDeclarators := by
    decide +kernel
  have line : declarationLine "\t ".toList true "String" mixedDeclarators ++ ";".toList =
      "\t final String text = pick(1, \"a, \\\" (\"), n_2, last = a[f(x, 2)] == ',' ? b : c;".toList := by
    decide +kernel
  have assigned : mixedDeclarators.map (Declarator.assigned "\t ".toList) =
      ["\t text = pick(1, \"a, \\\" (\")".toList, "\t n_2 = None".toList,
        "\t last = a[f(x, 2)] == ',' ? b : c".toList] := by
    decide +kernel
  rw [← line, ← assigned]
  exact lines_convertSpelling_declarationLine isGap true declared nonempty plain

end Offside
