import Offside.Proofs.Layout.Delimiters
import Offside.Proofs.Respelling
import Offside.Proofs.Text.Silence

/-!
# The first line of a class

A class around an entry point disappears, and what the entry point does remains. The first line
of the class is looked at twice: the table of spellings holds two whole headers, and whatever
header is left at the start of a line is removed together with its name. The table knows nothing
of words. A longer name that starts like one of the two it holds is cut in the middle, and the
end of the name stays behind.
-/

namespace Offside

/-- The line that opens a class. -/
def classLine (name : Text) : Text :=
  "public class ".toList ++ (name ++ " \x7b".toList)

theorem classLine_eq (name : Text) :
    classLine name = "public class ".toList ++ (name ++ " \x7b".toList) := rfl

theorem classLine_append (name rest : Text) :
    classLine name ++ rest = "public class ".toList ++ (name ++ ' ' :: '\x7b' :: rest) := by
  have brace : " \x7b".toList ++ rest = ' ' :: '\x7b' :: rest := rfl
  rw [classLine_eq, List.append_assoc, List.append_assoc, brace]

/-! ## Behind a name

A keyword can be found inside a name. What stands behind it is then the rest of the name, or the
blank and the brace behind the name. -/

section BehindName

variable {more rest : Text}

theorem expect?_name {keyword back behind : Text} (solid : ' ' ∉ keyword)
    (found : expect? keyword (back ++ ' ' :: rest) = some behind) :
    ∃ more, back = keyword ++ more ∧ behind = more ++ ' ' :: rest := by
  have split := expect?_eq_some.1 found
  obtain ⟨more, rfl⟩ : keyword <+: back :=
    isPrefix_of_isPrefix_append_cons solid ⟨behind, split.symm⟩
  rw [List.append_assoc] at split
  exact ⟨more, rfl, (List.append_cancel_left split).symm⟩

variable (inside : ∀ char ∈ more, isIdentifierChar char = true)
include inside

theorem skipSome?_behindName {member : Char → Bool} (noBrace : member '\x7b' = false)
    (outside : ∀ char, isIdentifierChar char = true → member char = false) {left : Text}
    (found : skipSome? member (more ++ ' ' :: '\x7b' :: rest) = some left) :
    more = [] ∧ left = '\x7b' :: rest := by
  cases more with
  | nil =>
      rw [List.nil_append, skipSome?, Option.ite_none_right_eq_some, Option.some.injEq] at found
      rw [← found.2, List.dropWhile_cons_of_neg (by simp [noBrace])]
      exact ⟨rfl, rfl⟩
  | cons char more =>
      rw [List.cons_append, skipSome?, outside char (inside char List.mem_cons_self)] at found
      cases found

theorem expect?_behindName {wanted : Char} (outside : isIdentifierChar wanted = false)
    (other : more = [] → wanted ≠ '\x7b') :
    expect? [wanted] (skipBlanks (more ++ ' ' :: '\x7b' :: rest)) = none := by
  cases more with
  | nil =>
      have skipped : skipBlanks ([] ++ ' ' :: '\x7b' :: rest) = '\x7b' :: rest := rfl
      rw [skipped]
      exact expect?_cons_of_ne (other rfl).symm [] rest
  | cons char more =>
      have isInside := inside char List.mem_cons_self
      rw [List.cons_append,
        skipBlanks_cons_of_solid (isBlank_eq_false_of_isIdentifierChar isInside)]
      apply expect?_cons_of_ne
      rintro rfl
      rw [isInside] at outside
      cases outside

end BehindName

theorem isBlank_of_isIdentifierChar (char : Char) (inside : isIdentifierChar char = true) :
    isBlank char = false :=
  isBlank_eq_false_of_isIdentifierChar inside

/-! ## Names that are cut -/

/-- The spellings of truth values. -/
def truthSpellings : List (String × String) :=
  [("true", "True"), ("false", "False")]

/-- Put the word for it in the place of every missing object. -/
def respellNull (text : Text) : Text :=
  (Recognizer.fixed "null".toList).replaceAll (fun _ => noValue.toList) text

/-- The spellings of words that a name can hold. -/
def literalSpellings : List (String × String) :=
  truthSpellings ++ [("null", noValue)]

/-- The spellings that hold the header of a class or the like. -/
def headerSpellings : List (String × String) :=
  [("public class Main", ""), ("public class Fibonacci", ""),
    ("public static void main(String[] args)", ""), ("import java.util.Scanner", "")]

/-- What is left of a name that starts like one of the two in the table. -/
def leftover? (name : Text) : Option Text :=
  let spelled := respellBy literalSpellings name
  (expect? "Main".toList spelled).or (expect? "Fibonacci".toList spelled)

/-- What is left of a name on the first line of its class. -/
def leftover (name : Text) : Text :=
  (leftover? name).getD []

/-- A name goes on behind one of the two in the table. Behind the first of them it must not go on
as `null` does behind its first letter, because that is respelled before. -/
def Overrun (name : Text) : Prop :=
  (∃ rest, rest ≠ [] ∧ ¬"ull".toList <+: rest ∧ name = "Main".toList ++ rest) ∨
    ∃ rest, rest ≠ [] ∧ name = "Fibonacci".toList ++ rest

theorem literalSpellings_ne_nil : ∀ spelling ∈ literalSpellings, spelling.1.toList ≠ [] := by
  decide

theorem respellBy_literalSpellings_eq_nil {text : Text} :
    respellBy literalSpellings text = [] ↔ text = [] := by
  rw [← List.length_eq_zero_iff, length_respellBy literalSpellings_ne_nil (by decide),
    List.length_eq_zero_iff]

theorem respellBy_literalSpellings (text : Text) :
    respellBy literalSpellings text = respellNull (respellBy truthSpellings text) := rfl

/-- A `null` behind the first three letters of the name is respelled. -/
theorem respellNull_hit (text : Text) :
    respellNull ("Mai".toList ++ ("null".toList ++ text)) =
      "Mai".toList ++ (noValue.toList ++ respellNull text) := by
  have apart : Apart "Mai".toList "null".toList := by decide
  rw [respellNull, apart.replaceAll_append, replaceAll_fixed_hit _ (by decide), respellNull]

theorem respellNull_gap {text : Text} (missing : ¬"ull".toList <+: text) :
    respellNull ("Mai".toList ++ 'n' :: text) = "Mai".toList ++ 'n' :: respellNull text := by
  have apart : Apart "Mai".toList "null".toList := by decide
  have notHere : ¬"null".toList <+: 'n' :: text := fun starts =>
    missing (List.cons_prefix_cons.1 starts).2
  rw [respellNull, apart.replaceAll_append, replaceAll_fixed_cons _ notHere, respellNull]

/-- The first name of the table is found where it is not followed by the rest of `null`. -/
theorem isPrefix_main_iff {name : Text} :
    "Main".toList <+: respellBy literalSpellings name ↔
      ∃ rest, ¬"ull".toList <+: rest ∧ name = "Main".toList ++ rest := by
  have main : ∀ rest, "Main".toList ++ rest = "Mai".toList ++ 'n' :: rest := fun _ => rfl
  constructor
  · intro starts
    obtain ⟨rest, rfl, _⟩ :=
      exists_of_isPrefix_respellBy literalSpellings_ne_nil (by decide) starts
    refine ⟨rest, ?_, rfl⟩
    rintro ⟨behind, rfl⟩
    -- The `null` is respelled, and its first letter is no longer that of the name.
    have joined : "Main".toList ++ ("ull".toList ++ behind) =
        "Mai".toList ++ ("null".toList ++ behind) := rfl
    have apart : ∀ spelling ∈ truthSpellings,
        Apart ("Mai".toList ++ "null".toList) spelling.1.toList := by decide
    rw [joined, respellBy_literalSpellings, ← List.append_assoc, respellBy_append_of_apart apart,
      List.append_assoc, respellNull_hit] at starts
    obtain ⟨_, split⟩ := starts
    cases split
  · rintro ⟨rest, noNull, rfl⟩
    have missing : ¬"ull".toList <+: respellBy truthSpellings rest := by
      intro starts
      obtain ⟨_, split, _⟩ := exists_of_isPrefix_respellBy (by decide) (by decide) starts
      exact noNull ⟨_, split.symm⟩
    have apart : ∀ spelling ∈ truthSpellings, Apart "Main".toList spelling.1.toList := by decide
    rw [respellBy_literalSpellings, respellBy_append_of_apart apart, main, respellNull_gap missing,
      ← main]
    exact List.prefix_append _ _

theorem isPrefix_fibonacci_iff {name : Text} :
    "Fibonacci".toList <+: respellBy literalSpellings name ↔
      ∃ rest, name = "Fibonacci".toList ++ rest := by
  constructor
  · intro starts
    obtain ⟨rest, split, _⟩ :=
      exists_of_isPrefix_respellBy literalSpellings_ne_nil (by decide) starts
    exact ⟨rest, split⟩
  · rintro ⟨rest, rfl⟩
    have apart : ∀ spelling ∈ literalSpellings, Apart "Fibonacci".toList spelling.1.toList := by
      decide
    rw [respellBy_append_of_apart apart]
    exact List.prefix_append _ _

theorem exists_of_expect?_respellBy {part name left : Text}
    (apart : ∀ spelling ∈ literalSpellings, Apart part spelling.2.toList)
    (found : expect? part (respellBy literalSpellings name) = some left) :
    ∃ rest, name = part ++ rest ∧ left = respellBy literalSpellings rest := by
  have split := expect?_eq_some.1 found
  obtain ⟨rest, rfl, behind⟩ :=
    exists_of_isPrefix_respellBy literalSpellings_ne_nil apart ⟨left, split.symm⟩
  exact ⟨rest, rfl, List.append_cancel_left (split.symm.trans behind)⟩

theorem main_ne_fibonacci (rest other : Text) :
    "Main".toList ++ rest ≠ "Fibonacci".toList ++ other := by
  intro same
  cases same

/-- Something is left of exactly the names that go on behind one of the two in the table. -/
theorem leftover_ne_nil_iff {name : Text} : leftover name ≠ [] ↔ Overrun name := by
  cases main : expect? "Main".toList (respellBy literalSpellings name) with
  | some left =>
      have found : leftover name = left := by
        rw [leftover, leftover?, main]
        rfl
      obtain ⟨rest, rfl, rfl⟩ := exists_of_expect?_respellBy (by decide) main
      obtain ⟨other, noNull, same⟩ :=
        isPrefix_main_iff.1 ⟨_, (expect?_eq_some.1 main).symm⟩
      obtain rfl := List.append_cancel_left same
      rw [found, Ne, respellBy_literalSpellings_eq_nil]
      constructor
      · intro nonempty
        exact .inl ⟨rest, nonempty, noNull, rfl⟩
      · rintro (⟨other, nonempty, _, same⟩ | ⟨other, _, same⟩)
        · rwa [List.append_cancel_left same]
        · exact absurd same (main_ne_fibonacci rest other)
  | none =>
      have notMain : ¬"Main".toList <+: respellBy literalSpellings name := by
        rintro ⟨left, split⟩
        rw [expect?_eq_some.2 split.symm] at main
        cases main
      cases fibonacci : expect? "Fibonacci".toList (respellBy literalSpellings name) with
      | some left =>
          have found : leftover name = left := by
            rw [leftover, leftover?, main, fibonacci]
            rfl
          obtain ⟨rest, rfl, rfl⟩ := exists_of_expect?_respellBy (by decide) fibonacci
          rw [found, Ne, respellBy_literalSpellings_eq_nil]
          constructor
          · intro nonempty
            exact .inr ⟨rest, nonempty, rfl⟩
          · rintro (⟨other, _, _, same⟩ | ⟨other, nonempty, same⟩)
            · exact absurd same.symm (main_ne_fibonacci other rest)
            · rwa [List.append_cancel_left same]
      | none =>
          have found : leftover name = [] := by
            rw [leftover, leftover?, main, fibonacci]
            rfl
          rw [found]
          refine iff_of_false (fun nonempty => nonempty rfl) ?_
          rintro (⟨rest, _, noNull, same⟩ | ⟨rest, _, same⟩)
          · exact notMain (isPrefix_main_iff.2 ⟨rest, noNull, same⟩)
          · obtain ⟨left, split⟩ := isPrefix_fibonacci_iff.2 ⟨rest, same⟩
            rw [expect?_eq_some.2 split.symm] at fibonacci
            cases fibonacci

/-! ## The first line in front of its headers -/

theorem isInfix_of_isInfix_append {first : Char} {part left right : Text} (missing : first ∉ left)
    (occurs : first :: part <:+: left ++ right) : first :: part <:+: right := by
  induction left with
  | nil => exact occurs
  | cons char left ih =>
      rcases List.infix_cons_iff.1 occurs with starts | later
      · obtain ⟨rfl, _⟩ := List.cons_prefix_cons.1 starts
        exact absurd List.mem_cons_self missing
      · exact ih (fun member => missing (List.mem_cons_of_mem char member)) later

section Headers

variable {own body : Text} (single : '\n' ∉ own) (few : body.count ' ' ≤ 1)
include few

theorem not_isInfix_of_count : ¬"public class ".toList ++ own <:+: body := by
  intro occurs
  have inBody := (occurs.sublist.count_le ' ').trans few
  rw [List.count_append] at inBody
  have two : "public class ".toList.count ' ' = 2 := by decide
  omega

include single

theorem replaceAll_header_of_count :
    (Recognizer.fixed ("public class ".toList ++ own)).replaceAll (fun _ => []) body = body := by
  have nonempty : "public class ".toList ++ own ≠ [] := List.cons_ne_nil _ _
  have oneLine : '\n' ∉ "public class ".toList ++ own := by
    rw [List.mem_append, not_or]
    exact ⟨by decide, single⟩
  exact (fixed_settles_of_absent oneLine (not_isInfix_of_count few)).replaceAll
    (Recognizer.fixed_proper nonempty)

/-- A header of the table is removed where the name starts with the one that it holds. -/
theorem replaceAll_header :
    (Recognizer.fixed ("public class ".toList ++ own)).replaceAll (fun _ => [])
        ("public class ".toList ++ body) =
      (expect? own body).getD ("public class ".toList ++ body) := by
  have nonempty : "public class ".toList ++ own ≠ [] := List.cons_ne_nil _ _
  cases found : expect? own body with
  | some rest =>
      obtain rfl := expect?_eq_some.1 found
      have fewBehind : rest.count ' ' ≤ 1 := by
        rw [List.count_append] at few
        omega
      rw [← List.append_assoc, replaceAll_fixed_hit [] nonempty,
        replaceAll_header_of_count single fewBehind]
      rfl
  | none =>
      have notHere : ¬"public class ".toList ++ own <+: "public class ".toList ++ body := by
        intro starts
        obtain ⟨rest, rfl⟩ := (List.prefix_append_right_inj _).1 starts
        rw [expect?_append] at found
        cases found
      have absent : ¬"public class ".toList ++ own <:+: "public class ".toList ++ body := by
        intro occurs
        rcases List.infix_cons_iff.1 occurs with starts | later
        · exact notHere starts
        · have inside : 'p' ∉ "ublic class ".toList := by decide
          exact not_isInfix_of_count few (isInfix_of_isInfix_append inside later)
      have oneLine : '\n' ∉ "public class ".toList ++ own := by
        rw [List.mem_append, not_or]
        exact ⟨by decide, single⟩
      exact (fixed_settles_of_absent oneLine absent).replaceAll
        (Recognizer.fixed_proper nonempty)

end Headers

/-- The spellings of words change the name on the first line, and nothing else. -/
theorem respellBy_literalSpellings_classLine (name : Text) :
    respellBy literalSpellings (classLine name) =
      classLine (respellBy literalSpellings name) := by
  have apart : ∀ spelling ∈ literalSpellings, ' ' ∉ spelling.1.toList := by decide
  have parts : ∀ name, classLine name =
      "public".toList ++ ' ' :: ("class".toList ++ ' ' :: (name ++ ' ' :: "\x7b".toList)) :=
    fun _ => rfl
  have first : respellBy literalSpellings "public".toList = "public".toList := by decide +kernel
  have second : respellBy literalSpellings "class".toList = "class".toList := by decide +kernel
  have last : respellBy literalSpellings "\x7b".toList = "\x7b".toList := by decide +kernel
  rw [parts, respellBy_append_cons literalSpellings_ne_nil apart,
    respellBy_append_cons literalSpellings_ne_nil apart,
    respellBy_append_cons literalSpellings_ne_nil apart, first, second, last, ← parts]

/-- On a line without dots and semicolons only words and headers are respelled. -/
theorem respell_eq_headerSpellings {line : Text} (noDot : '.' ∉ line) (noMark : ';' ∉ line) :
    respell line = respellBy headerSpellings (respellBy literalSpellings line) := by
  have table : spellings =
      spellings.take 3 ++ (literalSpellings ++ ([(";", "")] ++ headerSpellings)) := rfl
  have dotted : ∀ spelling ∈ spellings.take 3, '.' ∈ spelling.1.toList := by decide
  have noCall : respellBy (spellings.take 3) line = line :=
    respellBy_of_absent (List.take_subset 3 spellings) fun spelling listed =>
      not_isInfix_of_notMem (dotted spelling listed) noDot
  have unmarked : ';' ∉ respellBy literalSpellings line := notMem_respellBy (by decide) noMark
  have noEnd : respellBy [(";", "")] (respellBy literalSpellings line) =
      respellBy literalSpellings line := by
    apply respellBy_of_absent (by decide)
    intro spelling listed
    rw [List.mem_singleton.1 listed]
    exact not_isInfix_of_notMem (by decide) unmarked
  rw [respell_eq, table, respellBy_append, noCall, respellBy_append, respellBy_append, noEnd]

/-- The spellings for the entry point and for an import hold characters of their own. -/
theorem respellBy_drop_of_notMem {line : Text} (noParen : '(' ∉ line) (noDot : '.' ∉ line) :
    respellBy (headerSpellings.drop 2) line = line := by
  have marked : ∀ spelling ∈ headerSpellings.drop 2,
      '(' ∈ spelling.1.toList ∨ '.' ∈ spelling.1.toList := by decide
  apply respellBy_of_absent (by decide)
  intro spelling listed
  rcases marked spelling listed with paren | dot
  · exact not_isInfix_of_notMem paren noParen
  · exact not_isInfix_of_notMem dot noDot

theorem respellBy_headerSpellings (line : Text) :
    respellBy headerSpellings line = respellBy (headerSpellings.drop 2)
      ((Recognizer.fixed ("public class ".toList ++ "Fibonacci".toList)).replaceAll (fun _ => [])
        ((Recognizer.fixed ("public class ".toList ++ "Main".toList)).replaceAll (fun _ => [])
          line)) := by
  have main : "public class ".toList ++ "Main".toList = "public class Main".toList := by decide
  have fibonacci : "public class ".toList ++ "Fibonacci".toList =
      "public class Fibonacci".toList := by decide
  have table : headerSpellings = ("public class Main", "") :: ("public class Fibonacci", "") ::
      headerSpellings.drop 2 := rfl
  have empty : "".toList = [] := rfl
  rw [main, fibonacci, table, respellBy_cons, respellBy_cons, empty, ← table]

section FirstLine

variable {name : Text} (inside : ∀ char ∈ name, isIdentifierChar char = true)
include inside

theorem notMem_of_inside {char : Char} (outside : isIdentifierChar char = false) :
    char ∉ name := by
  intro member
  rw [inside char member] at outside
  cases outside

theorem notMem_classLine {char : Char} (outside : isIdentifierChar char = false)
    (notBefore : char ∉ "public class ".toList) (notBehind : char ∉ " \x7b".toList) :
    char ∉ classLine name := by
  have notInName := notMem_of_inside inside outside
  rw [classLine_eq, List.mem_append, List.mem_append]
  simp only [notBefore, notInName, notBehind, or_self, not_false_eq_true]

theorem inside_respellBy : ∀ char ∈ respellBy literalSpellings name,
    isIdentifierChar char = true := by
  intro char member
  by_contra outside
  rw [Bool.not_eq_true] at outside
  have absent : ∀ spelling ∈ literalSpellings, ∀ other ∈ spelling.2.toList,
      isIdentifierChar other = true := by decide
  refine notMem_respellBy ?_ (notMem_of_inside inside outside) member
  intro spelling listed inNew
  rw [absent spelling listed char inNew] at outside
  cases outside

theorem count_space_append : (name ++ ' ' :: "\x7b".toList).count ' ' ≤ 1 := by
  have absent : name.count ' ' = 0 :=
    List.count_eq_zero.2 (notMem_of_inside inside (by decide))
  have one : (' ' :: "\x7b".toList).count ' ' = 1 := by decide
  rw [List.count_append, absent, one]

theorem respellBy_drop_append :
    respellBy (headerSpellings.drop 2) (name ++ ' ' :: "\x7b".toList) =
      name ++ ' ' :: "\x7b".toList := by
  apply respellBy_drop_of_notMem
  · rw [List.mem_append, not_or]
    exact ⟨notMem_of_inside inside (by decide), by decide⟩
  · rw [List.mem_append, not_or]
    exact ⟨notMem_of_inside inside (by decide), by decide⟩

/-- On the first line, one of the two headers of the table is removed, or none. -/
theorem respellBy_headerSpellings_classLine :
    respellBy headerSpellings (classLine name) =
      (((expect? "Main".toList name).or (expect? "Fibonacci".toList name)).map
        (· ++ ' ' :: "\x7b".toList)).getD (classLine name) := by
  have few := count_space_append inside
  have remains : ∀ {own left : Text}, expect? own name = some left →
      ∀ char ∈ left, isIdentifierChar char = true := by
    intro own left found char member
    exact inside char ((expect?_suffix found).subset member)
  have line : classLine name = "public class ".toList ++ (name ++ ' ' :: "\x7b".toList) := rfl
  rw [respellBy_headerSpellings, line, replaceAll_header (by decide) few,
    expect?_append_cons (by decide)]
  cases main : expect? "Main".toList name with
  | some left =>
      have insideLeft := remains main
      rw [Option.map_some, Option.getD_some,
        replaceAll_header_of_count (by decide) (count_space_append insideLeft),
        respellBy_drop_append insideLeft]
      rfl
  | none =>
      rw [Option.map_none, Option.getD_none, replaceAll_header (by decide) few,
        expect?_append_cons (by decide), Option.none_or]
      cases fibonacci : expect? "Fibonacci".toList name with
      | some left => exact respellBy_drop_append (remains fibonacci)
      | none =>
          apply respellBy_drop_of_notMem
          · exact notMem_classLine inside (by decide) (by decide) (by decide)
          · exact notMem_classLine inside (by decide) (by decide) (by decide)

/-- What the table makes of the first line. -/
theorem respell_classLine :
    respell (classLine name) =
      ((leftover? name).map (· ++ ' ' :: "\x7b".toList)).getD
        (classLine (respellBy literalSpellings name)) := by
  have noDot : '.' ∉ classLine name :=
    notMem_classLine inside (by decide) (by decide) (by decide)
  have noMark : ';' ∉ classLine name :=
    notMem_classLine inside (by decide) (by decide) (by decide)
  rw [respell_eq_headerSpellings noDot noMark, respellBy_literalSpellings_classLine,
    respellBy_headerSpellings_classLine (inside_respellBy inside), leftover?]

end FirstLine

/-! ## The first line behind its headers -/

/-- Whether a text is the name of a type that starts a declaration. -/
def isTypeName (text : Text) : Bool :=
  declaredTypes.any fun type => type.toList = text

theorem isTypeName_eq_true {text : Text} :
    isTypeName text = true ↔ ∃ type ∈ declaredTypes, type.toList = text := by
  simp only [isTypeName, List.any_eq_true, decide_eq_true_eq]

/-- What the spelling pass makes of the end of a name with the brace behind it. The name of a type
counts as the start of a declaration, and the brace as what is declared. -/
def spelledEnd (left : Text) : Text :=
  if isTypeName left then "\x7b = None".toList else left ++ ' ' :: "\x7b".toList

theorem isTabOrSpace_of_isIdentifierChar (char : Char) (inside : isIdentifierChar char = true) :
    isTabOrSpace char = false := by
  cases tabOrSpace : isTabOrSpace char with
  | false => rfl
  | true =>
      have blank := isBlank_of_isTabOrSpace tabOrSpace
      rw [isBlank_of_isIdentifierChar char inside] at blank
      cases blank

section End

variable {left : Text} (inside : ∀ char ∈ left, isIdentifierChar char = true)
include inside

theorem inside_of_eq_append {keyword more : Text} (split : left = keyword ++ more) :
    ∀ char ∈ more, isIdentifierChar char = true := by
  intro char member
  apply inside
  rw [split]
  exact List.mem_append_right keyword member

/-- A modifier is passed over as a whole word only, and then nothing but the brace is left. -/
theorem skipModifier_append_space (modifier : String) (solid : ' ' ∉ modifier.toList) :
    skipModifier modifier (left ++ ' ' :: "\x7b".toList) = left ++ ' ' :: "\x7b".toList ∨
      skipModifier modifier (left ++ ' ' :: "\x7b".toList) = "\x7b".toList := by
  rw [skipModifier]
  cases found : expect? modifier.toList (left ++ ' ' :: "\x7b".toList) with
  | none => exact .inl rfl
  | some behind =>
      obtain ⟨more, split, rfl⟩ := expect?_name solid found
      rw [Option.bind_eq_bind, Option.bind_some]
      cases skipped : skipSome? isTabOrSpace (more ++ ' ' :: "\x7b".toList) with
      | none => exact .inl rfl
      | some rest =>
          obtain ⟨_, rfl⟩ := skipSome?_behindName (inside_of_eq_append inside split) (by decide)
            isTabOrSpace_of_isIdentifierChar skipped
          exact .inr rfl

/-- Behind a keyword at the start there is no blank, or nothing but the brace behind the blank. -/
theorem bind_behindKeyword {β : Type} {keyword : Text} (solid : ' ' ∉ keyword)
    {next : Text → Option β} (stops : next "\x7b".toList = none) :
    ((expect? keyword (left ++ ' ' :: "\x7b".toList)).bind fun behind =>
      (skipSome? isTabOrSpace behind).bind next) = none := by
  cases found : expect? keyword (left ++ ' ' :: "\x7b".toList) with
  | none => rfl
  | some behind =>
      obtain ⟨more, split, rfl⟩ := expect?_name solid found
      rw [Option.bind_some]
      cases skipped : skipSome? isTabOrSpace (more ++ ' ' :: "\x7b".toList) with
      | none => rfl
      | some rest =>
          obtain ⟨_, rfl⟩ := skipSome?_behindName (inside_of_eq_append inside split) (by decide)
            isTabOrSpace_of_isIdentifierChar skipped
          exact stops

variable (nonempty : left ≠ [])
include nonempty

theorem dropWhile_append_space (rest : Text) :
    (left ++ rest).dropWhile isTabOrSpace = left ++ rest := by
  obtain ⟨char, left, rfl⟩ := List.exists_cons_of_ne_nil nonempty
  have solid := isTabOrSpace_of_isIdentifierChar char (inside char List.mem_cons_self)
  exact List.dropWhile_cons_of_neg (by simp [solid])

theorem withoutClass_append_space :
    withoutClass (left ++ ' ' :: "\x7b".toList) = left ++ ' ' :: "\x7b".toList := by
  have missing : afterClass? (left ++ ' ' :: "\x7b".toList) = none := by
    rw [afterClass?_eq, dropWhile_append_space inside nonempty]
    rcases skipModifier_append_space inside "public" (by decide) with same | gone
    · rw [same]
      rcases skipModifier_append_space inside "final" (by decide) with same | gone
      · rw [same]
        exact bind_behindKeyword inside (by decide) rfl
      · rw [gone]
        rfl
    · rw [gone]
      rfl
  rw [withoutClass, missing]
  rfl

theorem withoutMain_append_space :
    withoutMain (left ++ ' ' :: "\x7b".toList) = left ++ ' ' :: "\x7b".toList := by
  have missing : afterMain? (left ++ ' ' :: "\x7b".toList) = none := by
    rw [afterMain?_eq, dropWhile_append_space inside nonempty]
    rcases skipModifier_append_space inside "public" (by decide) with same | gone
    · rw [same]
      exact bind_behindKeyword inside (by decide) rfl
    · rw [gone]
      rfl
  rw [withoutMain, missing]
  rfl

theorem respellDeclaration_append_space :
    respellDeclaration (left ++ ' ' :: "\x7b".toList) = spelledEnd left := by
  rw [spelledEnd]
  split
  · next isType =>
      have declared : ∀ type ∈ declaredTypes,
          respellDeclaration (type.toList ++ ' ' :: "\x7b".toList) = "\x7b = None".toList := by
        decide +kernel
      obtain ⟨type, listed, rfl⟩ := isTypeName_eq_true.1 isType
      exact declared type listed
  · next noType =>
      apply respellDeclaration_eq_self
      rw [dropWhile_append_space inside nonempty]
      rcases skipModifier_append_space inside "final" (by decide) with same | gone
      · rw [same, behindType?, List.findSome?_eq_none_iff]
        intro type listed
        have solid : ∀ type ∈ declaredTypes, ' ' ∉ type.toList := by decide
        cases found : expect? type.toList (left ++ ' ' :: "\x7b".toList) with
        | none => rfl
        | some behind =>
            obtain ⟨more, rfl, rfl⟩ := expect?_name (solid type listed) found
            cases more with
            | nil =>
                rw [List.append_nil] at noType
                exact absurd (isTypeName_eq_true.2 ⟨type, listed, rfl⟩) noType
            | cons char more =>
                have isInside := inside char (by simp)
                have noBlank : ¬((char :: more ++ ' ' :: "\x7b".toList).head?.any isTabOrSpace =
                    true) := by
                  simp [isTabOrSpace_of_isIdentifierChar char isInside]
                rw [Option.bind_eq_bind, Option.bind_some, guard_of_false noBlank]
                rfl
      · rw [gone]
        decide +kernel

end End

/-- The end of a name is respelled with the brace behind it, also if there is nothing of it. -/
theorem respellEnd {left : Text} (inside : ∀ char ∈ left, isIdentifierChar char = true) :
    respellDeclaration (withoutMain (withoutClass (left ++ ' ' :: "\x7b".toList))) =
      spelledEnd left := by
  by_cases nonempty : left = []
  · rw [nonempty]
    decide +kernel
  · rw [withoutClass_append_space inside nonempty, withoutMain_append_space inside nonempty,
      respellDeclaration_append_space inside nonempty]

/-- A header that the table has left is removed together with the name. -/
theorem withoutClass_classLine {name : Text} (nonempty : name ≠ [])
    (inside : ∀ char ∈ name, isIdentifierChar char = true) :
    withoutClass (classLine name) = ' ' :: "\x7b".toList := by
  have isWord : IsWord name :=
    ⟨nonempty, fun char member => isWordChar_of_isIdentifierChar (inside char member)⟩
  have closes : closesWord (' ' :: "\x7b".toList) = true := by decide
  have modifiers : skipModifier "final" (skipModifier "public"
      ((classLine name).dropWhile isTabOrSpace)) =
        "class".toList ++ ' ' :: (name ++ ' ' :: "\x7b".toList) := rfl
  have blank : skipSome? isTabOrSpace (' ' :: (name ++ ' ' :: "\x7b".toList)) =
      some (name ++ ' ' :: "\x7b".toList) :=
    congrArg some (dropWhile_append_space inside nonempty _)
  have found : afterClass? (classLine name) = some (' ' :: "\x7b".toList) := by
    rw [afterClass?_eq, modifiers, expect?_append, Option.bind_some, blank, Option.bind_some,
      isWord.word?_append closes]
    rfl
  rw [withoutClass, found]
  rfl

theorem inside_leftover? {name left : Text}
    (inside : ∀ char ∈ name, isIdentifierChar char = true) (found : leftover? name = some left) :
    ∀ char ∈ left, isIdentifierChar char = true := by
  have suffix : left <:+ respellBy literalSpellings name := by
    rcases Option.or_eq_some_iff.1 found with main | ⟨_, fibonacci⟩
    · exact expect?_suffix main
    · exact expect?_suffix fibonacci
  intro char member
  exact inside_respellBy inside char (suffix.subset member)

/-- The spelling pass leaves the end of the name that the table has cut, and the brace. -/
theorem respellLine_classLine (name : Identifier) :
    respellLine (classLine name.text) = spelledEnd (leftover name.text) := by
  rw [respellLine_eq, respell_classLine name.inside, leftover]
  cases found : leftover? name.text with
  | none =>
      have nonempty : respellBy literalSpellings name.text ≠ [] := by
        rw [Ne, respellBy_literalSpellings_eq_nil]
        exact name.nonempty
      rw [Option.map_none, Option.getD_none, Option.getD_none,
        withoutClass_classLine nonempty (inside_respellBy name.inside)]
      decide +kernel
  | some left => exact respellEnd (inside_leftover? name.inside found)

theorem spelledEnd_eq_brace_iff {left : Text} :
    spelledEnd left = " \x7b".toList ↔ left = [] := by
  constructor
  · intro same
    rw [spelledEnd] at same
    split at same
    · exact absurd same (by decide)
    · exact List.append_cancel_right (same : left ++ " \x7b".toList = [] ++ " \x7b".toList)
  · rintro rfl
    decide

end Offside
