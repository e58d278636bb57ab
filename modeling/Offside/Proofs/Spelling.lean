import Offside.Proofs.Declaration.Commas
import Offside.Proofs.Text.Recognition
import Offside.Proofs.Text.Token
import Offside.Spelling

/-!
# Spelling of a line

What respelling leaves alone, and what it does to a line that holds one spelling of the table.
A declaration is read off a line together with its indentation.
-/

namespace Offside

/-! ## Fixed spellings -/

theorem Recognizer.fixed_at? (old : Text) (before : Option Char) (text : Text) :
    (Recognizer.fixed old).at? before text = (expect? old text).map fun rest => ((), rest) := rfl

theorem Recognizer.fixed_opensWith (old : Text) : (Recognizer.fixed old).OpensWith [old] := by
  intro before text value rest found
  rcases Option.map_eq_some_iff.1 found with ⟨behind, expected, result⟩
  cases result
  exact ⟨old, List.mem_cons_self, rest, expect?_eq_some.1 expected, List.suffix_rfl⟩

theorem Recognizer.fixed_proper {old : Text} (nonempty : old ≠ []) :
    (Recognizer.fixed old).Proper := by
  apply (Recognizer.fixed_opensWith old).proper
  intro opening member
  rwa [List.mem_singleton.1 member]

section Fixed

variable {old left right line : Text}

theorem fixed_settles_of_absent (single : '\n' ∉ old) (absent : ¬old <:+: line)
    {judge : Unit → Verdict} {before : Option Char} :
    (Recognizer.fixed old).Settles judge [] before line line := by
  apply (Recognizer.fixed_opensWith old).settles _ _ closesLine_nil
  · intro opening member
    rwa [List.mem_singleton.1 member]
  · intro opening member
    rwa [List.mem_singleton.1 member]

theorem fixed_settles_of_notMem {first : Char} (missing : first ∉ left) (rest : Text)
    {judge : Unit → Verdict} {before : Option Char} :
    (Recognizer.fixed (first :: old)).Settles judge rest before left left := by
  induction left generalizing before with
  | nil => exact .nil
  | cons char left ih =>
      apply Recognizer.Settles.gap
      · have other : char ≠ first := by
          rintro rfl
          exact missing List.mem_cons_self
        rw [Recognizer.fixed_at?, expect?_cons_of_ne other]
        rfl
      · exact ih fun member => missing (List.mem_cons_of_mem char member)

/-- A spelling that occurs once is replaced there. -/
theorem replaceAll_fixed_of_once {first : Char} (single : '\n' ∉ first :: old)
    (missing : first ∉ left) (absent : ¬first :: old <:+: right) (new : Text) :
    (Recognizer.fixed (first :: old)).replaceAll (fun _ => new)
      (left ++ ((first :: old) ++ right)) = left ++ (new ++ right) := by
  have nonempty : first :: old ≠ [] := List.cons_ne_nil first old
  apply Recognizer.Settles.replaceAll (Recognizer.fixed_proper nonempty)
  apply Recognizer.Settles.append (fixed_settles_of_notMem missing _)
  apply Recognizer.Settles.append
  · have found : (Recognizer.fixed (first :: old)).at? (passed none left)
        ((first :: old) ++ (right ++ [])) = some ((), right ++ []) := by
      rw [Recognizer.fixed_at?, expect?_append]
      rfl
    exact .cons_hit nonempty found rfl
  · exact fixed_settles_of_absent single absent

end Fixed

section Steps

variable {old : Text} (new : Text)

/-- The character in front of a position means nothing to a fixed spelling. -/
theorem replaceAll_fixed_cons {char : Char} {text : Text} (missing : ¬old <+: char :: text) :
    (Recognizer.fixed old).replaceAll (fun _ => new) (char :: text) =
      char :: (Recognizer.fixed old).replaceAll (fun _ => new) text := by
  have notHere : (Recognizer.fixed old).at? none (char :: text) = none := by
    rw [Recognizer.fixed_at?, expect?_eq_none missing]
    rfl
  have heedless : (Recognizer.fixed old).piecesFrom .free (some char) text =
      (Recognizer.fixed old).pieces text := by
    cases text <;> rfl
  rw [Recognizer.replaceAll, Recognizer.pieces, Recognizer.piecesFrom_of_at?_eq_none notHere,
    heedless]
  rfl

variable (nonempty : old ≠ [])
include nonempty

theorem replaceAll_fixed_nil : (Recognizer.fixed old).replaceAll (fun _ => new) [] = [] := by
  rw [Recognizer.replaceAll, Recognizer.pieces,
    (Recognizer.fixed_proper nonempty).piecesFrom_nil]
  rfl

theorem replaceAll_fixed_hit (text : Text) :
    (Recognizer.fixed old).replaceAll (fun _ => new) (old ++ text) =
      new ++ (Recognizer.fixed old).replaceAll (fun _ => new) text := by
  have here : (Recognizer.fixed old).at? none (old ++ text) = some ((), text) := by
    rw [Recognizer.fixed_at?, expect?_append]
    rfl
  have heedless : (Recognizer.fixed old).piecesFrom .free (passed none old) text =
      (Recognizer.fixed old).pieces text := by
    cases text <;> rfl
  rw [Recognizer.replaceAll, Recognizer.pieces,
    (Recognizer.fixed_proper nonempty).piecesFrom_of_at?_eq_some nonempty here, heedless]
  rfl

/-- A text is replaced from left to right, one character or one occurrence at a time. -/
theorem fixed_induction {motive : Text → Prop} (nil : motive [])
    (gap : ∀ char text, ¬old <+: char :: text → motive text → motive (char :: text))
    (hit : ∀ text, motive text → motive (old ++ text)) (text : Text) : motive text := by
  by_cases starts : old <+: text
  · obtain ⟨rest, rfl⟩ := starts
    have shorter : rest.length < (old ++ rest).length := by
      have taken := List.length_pos_iff.2 nonempty
      rw [List.length_append]
      omega
    exact hit rest (fixed_induction nil gap hit rest)
  · cases text with
    | nil => exact nil
    | cons char text => exact gap char text starts (fixed_induction nil gap hit text)
termination_by text.length

/-- A spelling does not reach across a character that it does not hold. -/
theorem replaceAll_fixed_append_cons {separator : Char} (apart : separator ∉ old)
    (left right : Text) :
    (Recognizer.fixed old).replaceAll (fun _ => new) (left ++ separator :: right) =
      (Recognizer.fixed old).replaceAll (fun _ => new) left ++
        separator :: (Recognizer.fixed old).replaceAll (fun _ => new) right := by
  induction left using fixed_induction nonempty with
  | nil =>
      have missing : ¬old <+: separator :: right := fun starts =>
        nonempty (List.prefix_nil.1 (isPrefix_of_isPrefix_append_cons apart starts))
      rw [List.nil_append, replaceAll_fixed_cons new missing, replaceAll_fixed_nil new nonempty,
        List.nil_append]
  | gap char left missing ih =>
      have stillMissing : ¬old <+: char :: (left ++ separator :: right) := fun starts =>
        missing (isPrefix_of_isPrefix_append_cons apart starts)
      rw [List.cons_append, replaceAll_fixed_cons new stillMissing, ih,
        replaceAll_fixed_cons new missing, List.cons_append]
  | hit left ih =>
      rw [List.append_assoc, replaceAll_fixed_hit new nonempty, ih,
        replaceAll_fixed_hit new nonempty, List.append_assoc]

end Steps

/-- Replace the spellings of a table, one after the other. -/
def respellBy (table : List (String × String)) (line : Text) : Text :=
  table.foldl (fun line (old, new) =>
    (Recognizer.fixed old.toList).replaceAll (fun _ => new.toList) line) line

theorem respell_eq (line : Text) : respell line = respellBy spellings line := rfl

theorem respellBy_cons (spelling : String × String) (table : List (String × String)) (line : Text) :
    respellBy (spelling :: table) line =
      respellBy table ((Recognizer.fixed spelling.1.toList).replaceAll
        (fun _ => spelling.2.toList) line) := rfl

theorem respellBy_append (front back : List (String × String)) (line : Text) :
    respellBy (front ++ back) line = respellBy back (respellBy front line) :=
  List.foldl_append

/-- Each part between separators is respelled by itself. -/
theorem respellBy_append_cons {table : List (String × String)} {separator : Char}
    (nonempty : ∀ spelling ∈ table, spelling.1.toList ≠ [])
    (apart : ∀ spelling ∈ table, separator ∉ spelling.1.toList) (left right : Text) :
    respellBy table (left ++ separator :: right) =
      respellBy table left ++ separator :: respellBy table right := by
  induction table generalizing left right with
  | nil => rfl
  | cons spelling table ih =>
      have here := replaceAll_fixed_append_cons spelling.2.toList
        (nonempty spelling List.mem_cons_self) (apart spelling List.mem_cons_self) left right
      have tail := ih (fun other member => nonempty other (List.mem_cons_of_mem spelling member))
        fun other member => apart other (List.mem_cons_of_mem spelling member)
      exact (congrArg (respellBy table) here).trans (tail _ _)

theorem spellings_ne_nil : ∀ spelling ∈ spellings, spelling.1.toList ≠ [] := by decide

theorem newline_notMem_spellings : ∀ spelling ∈ spellings, '\n' ∉ spelling.1.toList := by decide

theorem respellBy_of_absent {table : List (String × String)} {line : Text}
    (within : table ⊆ spellings)
    (absent : ∀ spelling ∈ table, ¬spelling.1.toList <:+: line) :
    respellBy table line = line := by
  induction table with
  | nil => rfl
  | cons spelling table ih =>
      have listed : spelling ∈ spellings := within List.mem_cons_self
      have unchanged : (Recognizer.fixed spelling.1.toList).replaceAll
          (fun _ => spelling.2.toList) line = line :=
        (fixed_settles_of_absent (newline_notMem_spellings spelling listed)
          (absent spelling List.mem_cons_self)).replaceAll
          (Recognizer.fixed_proper (spellings_ne_nil spelling listed))
      calc respellBy (spelling :: table) line
        _ = respellBy table ((Recognizer.fixed spelling.1.toList).replaceAll
              (fun _ => spelling.2.toList) line) := rfl
        _ = respellBy table line := by rw [unchanged]
        _ = line := ih (fun _ member => within (List.mem_cons_of_mem spelling member))
              fun other member => absent other (List.mem_cons_of_mem spelling member)

theorem respell_of_absent {line : Text}
    (absent : ∀ spelling ∈ spellings, ¬spelling.1.toList <:+: line) : respell line = line :=
  respellBy_of_absent (List.Subset.refl _) absent

/-- A line that holds one spelling of the table, and one that stands for nothing, loses it. -/
theorem respell_of_once {front back : List (String × String)} {old : String}
    (table : spellings = front ++ (old, "") :: back) {first : Char} {tail left right : Text}
    (shape : old.toList = first :: tail) (missing : first ∉ left)
    (absent : ¬first :: tail <:+: right)
    (absentFront : ∀ spelling ∈ front,
      ¬spelling.1.toList <:+: left ++ ((first :: tail) ++ right))
    (absentBack : ∀ spelling ∈ back, ¬spelling.1.toList <:+: left ++ right) :
    respell (left ++ ((first :: tail) ++ right)) = left ++ right := by
  have listed : (old, "") ∈ spellings := by
    rw [table]
    exact List.mem_append_right front List.mem_cons_self
  have single : '\n' ∉ first :: tail := by
    rw [← shape]
    exact newline_notMem_spellings _ listed
  have inFront : front ⊆ spellings := by
    rw [table]
    exact List.subset_append_left front _
  have inBack : back ⊆ spellings := by
    rw [table]
    exact List.Subset.trans (List.subset_cons_self _ back) (List.subset_append_right front _)
  calc respell (left ++ ((first :: tail) ++ right))
    _ = respellBy (front ++ (old, "") :: back) (left ++ ((first :: tail) ++ right)) := by
        rw [respell_eq, table]
    _ = respellBy ((old, "") :: back) (left ++ ((first :: tail) ++ right)) := by
        rw [respellBy_append, respellBy_of_absent inFront absentFront]
    _ = respellBy back ((Recognizer.fixed (first :: tail)).replaceAll (fun _ => [])
          (left ++ ((first :: tail) ++ right))) := by
        rw [← shape]
        rfl
    _ = respellBy back (left ++ right) := by
        rw [replaceAll_fixed_of_once single missing absent]
        rfl
    _ = left ++ right := respellBy_of_absent inBack absentBack

/-! ## Headers that disappear -/

theorem skipModifier_suffix (modifier : String) (text : Text) :
    skipModifier modifier text <:+ text := by
  rw [skipModifier]
  cases skipped : expect? modifier.toList text >>= skipSome? isTabOrSpace with
  | none => exact List.suffix_rfl
  | some rest =>
      rcases Option.bind_eq_some_iff.1 skipped with ⟨behind, expected, blanks⟩
      exact (skipSome?_suffix blanks).trans (expect?_suffix expected)

theorem skipModifier_of_not_isPrefix {modifier : String} {text : Text}
    (missing : ¬modifier.toList <+: text) : skipModifier modifier text = text := by
  rw [skipModifier, expect?_eq_none missing]
  rfl

theorem afterClass?_eq (line : Text) :
    afterClass? line =
      (expect? "class".toList
        (skipModifier "final" (skipModifier "public" (line.dropWhile isTabOrSpace)))).bind fun text =>
      (skipSome? isTabOrSpace text).bind fun text =>
      (word? text).bind fun (_, rest) => some rest := rfl

theorem afterClass?_suffix {line rest : Text} (found : afterClass? line = some rest) :
    rest <:+ line := by
  rw [afterClass?_eq] at found
  simp only [Option.bind_eq_some_iff] at found
  obtain ⟨behindClass, classFound, atName, skipped, ⟨name, behindName⟩, nameFound, result⟩ := found
  cases result
  calc behindName
    _ <:+ atName := word?_suffix nameFound
    _ <:+ behindClass := skipSome?_suffix skipped
    _ <:+ skipModifier "final" (skipModifier "public" (line.dropWhile isTabOrSpace)) :=
        expect?_suffix classFound
    _ <:+ skipModifier "public" (line.dropWhile isTabOrSpace) := skipModifier_suffix _ _
    _ <:+ line.dropWhile isTabOrSpace := skipModifier_suffix _ _
    _ <:+ line := List.dropWhile_suffix isTabOrSpace

theorem afterMain?_eq (line : Text) :
    afterMain? line =
      (expect? "static".toList (skipModifier "public" (line.dropWhile isTabOrSpace))).bind fun text =>
      (skipSome? isTabOrSpace text).bind fun text =>
      (expect? "void".toList text).bind fun text =>
      (skipSome? isTabOrSpace text).bind fun text =>
      (expect? "main".toList text).bind fun text =>
      (expect? "(".toList (text.dropWhile isTabOrSpace)).bind fun text =>
      expect? ")".toList (text.dropWhile (· ≠ ')')) := rfl

theorem afterMain?_suffix {line rest : Text} (found : afterMain? line = some rest) :
    rest <:+ line := by
  rw [afterMain?_eq] at found
  simp only [Option.bind_eq_some_iff] at found
  obtain ⟨behindStatic, staticFound, atVoid, toVoid, behindVoid, voidFound, atMain, toMain,
    behindMain, mainFound, behindParen, parenFound, closeFound⟩ := found
  calc rest
    _ <:+ behindParen.dropWhile (· ≠ ')') := expect?_suffix closeFound
    _ <:+ behindParen := List.dropWhile_suffix _
    _ <:+ behindMain.dropWhile isTabOrSpace := expect?_suffix parenFound
    _ <:+ behindMain := List.dropWhile_suffix isTabOrSpace
    _ <:+ atMain := expect?_suffix mainFound
    _ <:+ behindVoid := skipSome?_suffix toMain
    _ <:+ atVoid := expect?_suffix voidFound
    _ <:+ behindStatic := skipSome?_suffix toVoid
    _ <:+ skipModifier "public" (line.dropWhile isTabOrSpace) := expect?_suffix staticFound
    _ <:+ line.dropWhile isTabOrSpace := skipModifier_suffix _ _
    _ <:+ line := List.dropWhile_suffix isTabOrSpace

theorem afterClass?_eq_none {line : Text} (absent : ¬"class".toList <:+: line) :
    afterClass? line = none := by
  have inLine : skipModifier "final" (skipModifier "public" (line.dropWhile isTabOrSpace)) <:+
      line :=
    (skipModifier_suffix _ _).trans
      ((skipModifier_suffix _ _).trans (List.dropWhile_suffix isTabOrSpace))
  have missing := expect?_eq_none fun starts => absent (starts.isInfix.trans inLine.isInfix)
  rw [afterClass?_eq, missing]
  rfl

theorem afterMain?_eq_none {line : Text} (absent : ¬"static".toList <:+: line) :
    afterMain? line = none := by
  have inLine : skipModifier "public" (line.dropWhile isTabOrSpace) <:+ line :=
    (skipModifier_suffix _ _).trans (List.dropWhile_suffix isTabOrSpace)
  have missing := expect?_eq_none fun starts => absent (starts.isInfix.trans inLine.isInfix)
  rw [afterMain?_eq, missing]
  rfl

/-! ## Declarations -/

theorem behindType?_eq_none {text : Text}
    (missing : ∀ type ∈ declaredTypes, ¬type.toList <+: text) : behindType? text = none := by
  rw [behindType?, List.findSome?_eq_none_iff]
  intro type member
  rw [expect?_eq_none (missing type member)]
  rfl

theorem behindType?_suffix {text behind : Text} (found : behindType? text = some behind) :
    behind <:+ text := by
  obtain ⟨type, _, read⟩ := List.exists_of_findSome?_eq_some found
  obtain ⟨rest, expected, guarded⟩ := Option.bind_eq_some_iff.1 read
  obtain ⟨_, _, result⟩ := Option.bind_eq_some_iff.1 guarded
  cases result
  exact expect?_suffix expected

theorem Declaration.ofLine?_eq (line : Text) :
    Declaration.ofLine? line =
      (behindType? (skipModifier "final" (line.dropWhile isTabOrSpace))).bind fun behind =>
      Option.bind (guard (2 ≤ behind.length)) fun _ =>
      some { indent := line.takeWhile isTabOrSpace,
             declarators := trimEnd (behind.dropWhile isTabOrSpace) } := rfl

/-- A line that starts with no type is left as it is. -/
theorem respellDeclaration_eq_self {line : Text}
    (missing : behindType? (skipModifier "final" (line.dropWhile isTabOrSpace)) = none) :
    respellDeclaration line = line := by
  rw [respellDeclaration, Declaration.ofLine?_eq, missing]
  rfl

/-- The declaration of one variable of type `int` becomes an assignment. -/
theorem respellDeclaration_int {indent declarator : Text} (isGap : IsGap indent)
    (isToken : IsToken declarator) (free : ',' ∉ declarator) :
    respellDeclaration (indent ++ ("int ".toList ++ declarator)) =
      assignment indent declarator := by
  have read : Declaration.ofLine? (indent ++ ("int ".toList ++ declarator)) =
      some { indent, declarators := declarator } := by
    have stop : ∀ char, ("int ".toList ++ declarator).head? = some char →
        isTabOrSpace char = false := by
      intro char first
      cases first
      rfl
    have behind : behindType? (skipModifier "final" ("int ".toList ++ declarator)) =
        some (' ' :: declarator) := rfl
    have long : 2 ≤ (' ' :: declarator).length :=
      Nat.succ_le_succ (List.length_pos_iff.2 isToken.nonempty)
    have declarators : trimEnd ((' ' :: declarator).dropWhile isTabOrSpace) = declarator := by
      have blank : IsGap [' '] := by decide
      have dropped : ([' '] ++ declarator).dropWhile isTabOrSpace = declarator :=
        dropWhile_append_of_stop blank isToken.starts.isTabOrSpace_eq_false
      exact (congrArg trimEnd dropped).trans isToken.ends.trimEnd_eq
    rw [Declaration.ofLine?_eq, takeWhile_append_of_stop isGap stop,
      dropWhile_append_of_stop isGap stop, behind, Option.bind_some, guard_of_true long,
      declarators]
    rfl
  have single : ((splitCommas declarator).map trim).filter (· ≠ []) = [declarator] := by
    rw [(isPart_of_comma_notMem free).splitCommas_eq, List.map_singleton,
      trim_eq_self isToken.starts isToken.ends]
    simp [isToken.nonempty]
  rw [respellDeclaration, read, Option.map_some, Option.getD_some, Declaration.render, assignments,
    single]
  rfl

/-! ## Whole lines -/

/-- A line without the header of a class at its start. -/
def withoutClass (line : Text) : Text :=
  (afterClass? line).getD line

/-- A line without the header of the entry point at its start. -/
def withoutMain (line : Text) : Text :=
  (afterMain? line).getD line

theorem withoutClass_suffix (line : Text) : withoutClass line <:+ line := by
  rw [withoutClass]
  cases found : afterClass? line with
  | none => exact List.suffix_rfl
  | some rest => exact afterClass?_suffix found

theorem withoutMain_suffix (line : Text) : withoutMain line <:+ line := by
  rw [withoutMain]
  cases found : afterMain? line with
  | none => exact List.suffix_rfl
  | some rest => exact afterMain?_suffix found

theorem respellLine_eq (line : Text) :
    respellLine line = respellDeclaration (withoutMain (withoutClass (respell line))) := rfl

/-- A line without headers is respelled, and then read as a declaration. -/
theorem respellLine_of_respell {line respelled : Text} (isRespelled : respell line = respelled)
    (noClass : ¬"class".toList <:+: respelled) (noMain : ¬"static".toList <:+: respelled) :
    respellLine line = respellDeclaration respelled := by
  have classless : withoutClass respelled = respelled := by
    rw [withoutClass, afterClass?_eq_none noClass]
    rfl
  have mainless : withoutMain respelled = respelled := by
    rw [withoutMain, afterMain?_eq_none noMain]
    rfl
  rw [respellLine_eq, isRespelled, classless, mainless]

end Offside
