import Offside.Proofs.Printing
import Offside.Proofs.Text.Lines
import Offside.Proofs.Text.Quoting
import Offside.Proofs.Text.Silence

/-!
# Operands of a concatenation

The arguments of a print call are cut at every `+`, and the blanks next to a cut go with it. There
is no doubt about the signs exactly if each of them stands outside of literals and parentheses. Then
no literal and no group in parentheses is cut: each of them is in one operand.
-/

namespace Offside

/-! ## Cutting -/

/-- Drop the blanks at the front of all operands but the first. -/
def trimFronts : List Text → List Text
  | [] => []
  | first :: rest => first :: rest.map skipBlanks

/-- Drop the blanks at the end of all operands but the last. -/
def trimBacks : List Text → List Text
  | [] => []
  | [last] => [last]
  | operand :: rest => trimEnd operand :: trimBacks rest

/-- What arguments are cut into at the signs, without the blanks next to a cut. -/
def operands (arguments : Text) : List Text :=
  trimBacks (trimFronts (arguments.splitOn '+'))

theorem splitOn_skipBlanks (text : Text) :
    (skipBlanks text).splitOn '+' = (text.splitOn '+').modifyHead skipBlanks := by
  induction text with
  | nil => rfl
  | cons char text ih =>
      cases blank : isBlank char with
      | true =>
          have noSign : (char == '+') = false := by
            rw [beq_eq_false_iff_ne]
            rintro rfl
            revert blank
            decide
          have skip : ∀ rest, skipBlanks (char :: rest) = skipBlanks rest := fun _ =>
            List.dropWhile_cons_of_pos blank
          rw [skip, ih, List.splitOn_cons_eq_if_modifyHead, noSign]
          cases text.splitOn '+' with
          | nil => rfl
          | cons first rest => simp [skip]
      | false =>
          rw [skipBlanks_cons_of_solid blank, List.splitOn_cons_eq_if_modifyHead]
          split
          · rfl
          · cases text.splitOn '+' with
            | nil => rfl
            | cons first rest => simp [skipBlanks_cons_of_solid blank]

theorem operands_of_notMem {arguments : Text} (free : '+' ∉ arguments) :
    operands arguments = [arguments] := by
  rw [operands, List.splitOn_eq_singleton free]
  rfl

/-- The first sign ends the first operand. -/
theorem operands_append_cons {first : Text} (free : '+' ∉ first) (rest : Text) :
    operands (first ++ '+' :: rest) = trimEnd first :: operands (skipBlanks rest) := by
  rw [operands, operands, List.splitOn_append_cons_self_of_not_mem free, splitOn_skipBlanks]
  cases pieces : rest.splitOn '+' with
  | nil => exact absurd pieces (List.splitOn_ne_nil '+' rest)
  | cons next others => rfl

/-- A text is handled from left to right, and behind a sign it goes on with the first solid
character. -/
theorem sign_induction {motive : Text → Prop} (last : ∀ text, '+' ∉ text → motive text)
    (cut : ∀ first rest, '+' ∉ first → motive (skipBlanks rest) → motive (first ++ '+' :: rest))
    (text : Text) : motive text := by
  by_cases member : '+' ∈ text
  · obtain ⟨first, rest, split, free⟩ := List.eq_append_cons_of_mem member
    have shorter : (skipBlanks rest).length < text.length := by
      have suffix := (skipBlanks_suffix rest).length_le
      rw [split, List.length_append, List.length_cons]
      omega
    rw [split]
    exact cut first rest free (sign_induction last cut (skipBlanks rest))
  · exact last text member
termination_by text.length

theorem count_skipBlanks (text : Text) : (skipBlanks text).count '+' = text.count '+' := by
  obtain ⟨blanks, blank, split⟩ := exists_append_skipBlanks text
  have free : '+' ∉ blanks := by
    intro member
    have isBlank := blank '+' member
    revert isBlank
    decide
  rw [split, List.count_append, List.count_eq_zero.2 free, Nat.zero_add, ← split]

theorem length_operands (arguments : Text) :
    (operands arguments).length = arguments.count '+' + 1 := by
  induction arguments using sign_induction with
  | last text free => rw [operands_of_notMem free, List.count_eq_zero.2 free, List.length_singleton]
  | cut first rest free ih =>
      rw [operands_append_cons free, List.length_cons, ih, count_skipBlanks, List.count_append,
        List.count_eq_zero.2 free, List.count_cons_self, Nat.zero_add]

theorem notMem_of_mem_operands {arguments operand : Text} (member : operand ∈ operands arguments) :
    '+' ∉ operand := by
  induction arguments using sign_induction with
  | last text free =>
      rw [operands_of_notMem free, List.mem_singleton] at member
      rwa [member]
  | cut first rest free ih =>
      rw [operands_append_cons free] at member
      rcases List.mem_cons.1 member with rfl | later
      · exact notMem_trimEnd free
      · exact ih later

theorem plusSign_at?_of_notMem {text : Text} (free : '+' ∉ text) (before : Option Char) :
    plusSign.at? before text = none := by
  rw [plusSign_at?]
  cases found : expect? "+".toList (skipBlanks text) with
  | none => rfl
  | some rest =>
      have sign : skipBlanks text = "+".toList ++ rest := expect?_eq_some.1 found
      have inside : '+' ∈ skipBlanks text := by
        rw [sign]
        exact List.mem_cons_self
      exact absurd ((skipBlanks_suffix text).subset inside) free

/-- A sign is recognised with the blanks in front of it. -/
theorem plusSign_at?_sign {blanks : Text} (blank : AllBlank blanks) (rest : Text)
    (before : Option Char) :
    plusSign.at? before (blanks ++ '+' :: rest) = some ((), skipBlanks rest) := by
  rw [plusSign_at?, skipBlanks_append blank, skipBlanks_cons_of_solid (by decide)]
  rfl

/-- Up to the blanks in front of a sign nothing is recognised. -/
theorem plusSign_silent {text : Text} (solid : EndsSolid text) (free : '+' ∉ text)
    (blanks rest : Text) (before : Option Char) :
    plusSign.Silent (blanks ++ '+' :: rest) before text := by
  apply Recognizer.Silent.of_forall
  rintro front back rfl nonempty
  obtain ⟨char, others, skipped⟩ :=
    List.exists_cons_of_ne_nil (solid.of_append.skipBlanks_ne_nil nonempty)
  obtain ⟨gap, gapBlank, split⟩ := exists_append_skipBlanks back
  have charSolid : isBlank char = false :=
    startsSolid_skipBlanks back char (by rw [skipped, List.head?_cons])
  have other : char ≠ '+' := by
    rintro rfl
    apply free
    rw [split, skipped]
    simp
  rw [plusSign_at?, split, List.append_assoc, skipBlanks_append gapBlank, skipped,
    List.cons_append, skipBlanks_cons_of_solid charSolid]
  have missing : expect? "+".toList (char :: (others ++ (blanks ++ '+' :: rest))) = none :=
    expect?_cons_of_ne other [] _
  rw [missing]
  rfl

/-- The first hit is the first sign with the blanks around it. -/
theorem exists_piecesFrom_plusSign {first : Text} (free : '+' ∉ first) (rest : Text)
    (before : Option Char) :
    ∃ matched here, plusSign.piecesFrom .free before (first ++ '+' :: rest) =
      (trimEnd first).map .gap ++
        .hit matched () :: plusSign.piecesFrom .free here (skipBlanks rest) := by
  obtain ⟨blanks, blank, split⟩ := exists_trimEnd_append first
  obtain ⟨more, _, restSplit⟩ := exists_append_skipBlanks rest
  have silent := plusSign_silent (endsSolid_trimEnd first) (notMem_trimEnd free) blanks rest before
  have found := plusSign_at?_sign blank rest (passed before (trimEnd first))
  have sign : blanks ++ '+' :: rest = (blanks ++ '+' :: more) ++ skipBlanks rest := by
    rw [List.append_assoc, List.cons_append, ← restSplit]
  have whole : first ++ '+' :: rest = trimEnd first ++ (blanks ++ '+' :: rest) := by
    rw [← List.append_assoc, ← split]
  rw [sign] at found
  rw [whole, silent.piecesFrom_append, sign,
    plusSign_proper.piecesFrom_of_at?_eq_some (by simp) found]
  exact ⟨_, _, rfl⟩

theorem flatMap_replaced_plusSign (before : Option Char) (arguments : Text) :
    (plusSign.piecesFrom .free before arguments).flatMap (Piece.replaced fun _ => ", ".toList) =
      joinWith ", ".toList (operands arguments) := by
  induction arguments using sign_induction generalizing before with
  | last text free =>
      have silent : plusSign.Silent [] before text := by
        apply Recognizer.Silent.of_forall
        rintro front back rfl _
        apply plusSign_at?_of_notMem
        rw [List.append_nil]
        exact fun member => free (List.mem_append_right front member)
      have pieces := silent.piecesFrom_append
      rw [List.append_nil, plusSign_proper.piecesFrom_nil, List.append_nil] at pieces
      rw [pieces, Recognizer.flatMap_replaced_gaps, operands_of_notMem free]
      rfl
  | cut first rest free ih =>
      obtain ⟨matched, here, pieces⟩ := exists_piecesFrom_plusSign free rest before
      rw [pieces, List.flatMap_append, Recognizer.flatMap_replaced_gaps, List.flatMap_cons, ih,
        operands_append_cons free]
      cases others : operands (skipBlanks rest) with
      | nil =>
          have length := length_operands (skipBlanks rest)
          rw [others] at length
          cases length
      | cons next others => exact (List.append_assoc _ _ _).symm

theorem spreadOperands_eq (arguments : Text) :
    spreadOperands arguments = joinWith ", ".toList (operands arguments) :=
  flatMap_replaced_plusSign none arguments

theorem notMem_spreadOperands (arguments : Text) : '+' ∉ spreadOperands arguments := by
  rw [spreadOperands_eq]
  intro member
  rcases mem_of_mem_joinWith member with inSeparator | ⟨operand, listed, inside⟩
  · revert inSeparator
    decide
  · exact notMem_of_mem_operands listed inside

/-! ## Doubts -/

/-- The number of open parentheses behind a character. -/
def parensBehind (depth : Nat) : Char × Quoting → Nat
  | (char, .outside) =>
      if char = '(' then depth + 1 else if char = ')' then depth - 1 else depth
  | _ => depth

/-- The number of open parentheses behind a text. -/
def parensAfter (depth : Nat) (start : Quoting) (text : Text) : Nat :=
  (start.annotate text).foldl parensBehind depth

theorem parensAfter_append (depth : Nat) (start : Quoting) (left right : Text) :
    parensAfter depth start (left ++ right) =
      parensAfter (parensAfter depth start left) (start.after left) right := by
  simp [parensAfter]

/-- A position outside of literals and parentheses. -/
def AtTop (depth : Nat) (start : Quoting) (front : Text) : Prop :=
  start.after front = .outside ∧ parensAfter depth start front = 0

/-- Whether a backslash has taken the meaning of the next character. -/
def Quoting.isEscaped : Quoting → Bool
  | escaped _ => true
  | _ => false

theorem hasInnerPlus_cons (depth : Nat) (here : Quoting) (char : Char)
    (rest : List (Char × Quoting)) :
    hasInnerPlus depth ((char, here) :: rest) = false ↔
      (char = '+' → here.isEscaped = true ∨ here = .outside ∧ depth = 0) ∧
        hasInnerPlus (parensBehind depth (char, here)) rest = false := by
  cases here with
  | outside =>
      by_cases sign : char = '+'
      · subst sign
        simp [hasInnerPlus, parensBehind, Quoting.isEscaped]
      · simp only [hasInnerPlus, parensBehind, sign, if_false, false_implies, true_and]
        split
        · rfl
        · split <;> rfl
  | inside mark =>
      by_cases sign : char = '+' <;>
        simp [hasInnerPlus, parensBehind, Quoting.isEscaped, sign]
  | escaped mark => simp [hasInnerPlus, parensBehind, Quoting.isEscaped]

/-- The signs of a text with a character more in front. -/
theorem forall_sign_cons {motive : Text → Prop} {char : Char} {text : Text} :
    (∀ front back, char :: text = front ++ '+' :: back → motive front) ↔
      (char = '+' → motive []) ∧
        ∀ front back, text = front ++ '+' :: back → motive (char :: front) := by
  constructor
  · intro all
    refine ⟨?_, fun front back split => all (char :: front) back (congrArg (char :: ·) split)⟩
    rintro rfl
    exact all [] text rfl
  · rintro ⟨first, others⟩ front back split
    cases front with
    | nil => exact first (List.cons.inj split).1
    | cons other front =>
        obtain ⟨rfl, rest⟩ := List.cons.inj split
        exact others front back rest

/-- No sign is doubtful exactly if each one is escaped or outside of everything. -/
theorem hasInnerPlus_annotate (depth : Nat) (start : Quoting) (text : Text) :
    hasInnerPlus depth (start.annotate text) = false ↔
      ∀ front back, text = front ++ '+' :: back →
        (start.after front).isEscaped = true ∨ AtTop depth start front := by
  induction text generalizing depth start with
  | nil => simp [hasInnerPlus]
  | cons char text ih =>
      rw [Quoting.annotate_cons, hasInnerPlus_cons, ih, forall_sign_cons]
      rfl

/-- If no sign is escaped, then no sign is doubtful exactly if each one is outside of everything. -/
theorem plusIsDoubtful_eq_false_iff {arguments : Text}
    (unescaped : ∀ entry ∈ Quoting.outside.annotate arguments, entry.1 = '+' →
      entry.2.isEscaped = false) :
    plusIsDoubtful arguments = false ↔
      ∀ front back, arguments = front ++ '+' :: back → AtTop 0 .outside front := by
  rw [plusIsDoubtful, hasInnerPlus_annotate]
  constructor
  · rintro undoubted front back rfl
    have here := unescaped ('+', Quoting.outside.after front) (by simp) rfl
    refine (undoubted front back rfl).resolve_left ?_
    rw [here]
    exact Bool.false_ne_true
  · intro top front back split
    exact .inr (top front back split)

/-! ## Literals and groups -/

/-- What stands between the marks of a literal. -/
inductive LiteralBody (mark : Char) : Text → Prop where
  | nil : LiteralBody mark []
  | plain {char : Char} {body : Text} : char ≠ mark → char ≠ '\\' → LiteralBody mark body →
      LiteralBody mark (char :: body)
  | escape {char : Char} {body : Text} : LiteralBody mark body →
      LiteralBody mark ('\\' :: char :: body)

/-- A string literal or a character literal. -/
inductive IsLiteral : Text → Prop where
  | mk {mark : Char} {body : Text} : mark ∈ quoteMarks → LiteralBody mark body →
      IsLiteral (mark :: (body ++ [mark]))

/-- A text in which every parenthesis has its partner. Those in literals do not count. -/
inductive Balanced : Text → Prop where
  | nil : Balanced []
  | plain {char : Char} {rest : Text} : char ∉ quoteMarks → char ≠ '(' → char ≠ ')' →
      Balanced rest → Balanced (char :: rest)
  | literal {literal rest : Text} : IsLiteral literal → Balanced rest → Balanced (literal ++ rest)
  | group {inner rest : Text} : Balanced inner → Balanced rest →
      Balanced ('(' :: (inner ++ ')' :: rest))

/-- A literal or a group in parentheses. -/
inductive IsEnclosed : Text → Prop where
  | literal {text : Text} : IsLiteral text → IsEnclosed text
  | group {inner : Text} : Balanced inner → IsEnclosed ('(' :: (inner ++ [')']))

/-- A text leads from one position to another, and none of its signs is outside of everything. -/
structure Shelters (depth : Nat) (start : Quoting) (text : Text) (ending : Nat) (stop : Quoting) :
    Prop where
  after : start.after text = stop
  parens : parensAfter depth start text = ending
  hidden : ∀ front back, text = front ++ '+' :: back → ¬AtTop depth start front

namespace Shelters

variable {depth ending : Nat} {start stop : Quoting}

theorem nil : Shelters depth start [] depth start where
  after := rfl
  parens := rfl
  hidden := by simp

theorem cons {char : Char} {text : Text} (first : char = '+' → start = .outside → depth ≠ 0)
    (rest : Shelters (parensBehind depth (char, start)) (start.next char) text ending stop) :
    Shelters depth start (char :: text) ending stop where
  after := rest.after
  parens := rest.parens
  hidden := forall_sign_cons.2 ⟨fun sign top => first sign top.1 top.2, rest.hidden⟩

theorem append {middle : Nat} {between : Quoting} {left right : Text}
    (leftShelters : Shelters depth start left middle between)
    (rightShelters : Shelters middle between right ending stop) :
    Shelters depth start (left ++ right) ending stop := by
  induction left generalizing depth start with
  | nil =>
      obtain ⟨rfl, rfl, _⟩ := leftShelters
      exact rightShelters
  | cons char left ih =>
      obtain ⟨first, rest⟩ := forall_sign_cons.1 leftShelters.hidden
      refine cons (fun sign outside zero => first sign ⟨outside, zero⟩) (ih ?_)
      exact ⟨leftShelters.after, leftShelters.parens, rest⟩

/-- A text without doubtful signs has none at all where it is sheltered. -/
theorem notMem {front text back : Text}
    (top : ∀ ahead behind, front ++ (text ++ back) = ahead ++ '+' :: behind →
      AtTop 0 .outside ahead)
    (outside : Quoting.outside.after front = start)
    (shelters : Shelters (parensAfter 0 .outside front) start text ending stop) :
    '+' ∉ text := by
  intro member
  obtain ⟨left, right, rfl⟩ := List.append_of_mem member
  obtain ⟨after, parens⟩ := top (front ++ left) (right ++ back) (by simp)
  apply shelters.hidden left right rfl
  rw [Quoting.after_append, outside] at after
  rw [parensAfter_append, outside] at parens
  exact ⟨after, parens⟩

end Shelters

theorem LiteralBody.shelters {mark : Char} {body : Text} (literal : LiteralBody mark body)
    (depth : Nat) : Shelters depth (.inside mark) body depth (.inside mark) := by
  induction literal with
  | nil => exact .nil
  | @plain char body noMark noEscape _ ih =>
      have next : (Quoting.inside mark).next char = .inside mark := by
        rw [Quoting.next, if_neg noEscape, if_neg noMark]
      refine .cons (fun _ outside => by cases outside) ?_
      rw [next]
      exact ih
  | escape _ ih =>
      have next : (Quoting.inside mark).next '\\' = .escaped mark := by
        rw [Quoting.next, if_pos rfl]
      refine .cons (fun _ outside => by cases outside) ?_
      rw [next]
      exact .cons (fun _ outside => by cases outside) ih

theorem IsLiteral.shelters {literal : Text} (isLiteral : IsLiteral literal) (depth : Nat) :
    Shelters depth .outside literal depth .outside := by
  obtain @⟨mark, body, isMark, literal⟩ := isLiteral
  have facts : ∀ char ∈ quoteMarks, char ≠ '+' ∧ char ≠ '\\' ∧
      ∀ count, parensBehind count (char, .outside) = count := by
    simp [quoteMarks, parensBehind]
  obtain ⟨noSign, noEscape, parens⟩ := facts mark isMark
  have opens : Quoting.outside.next mark = .inside mark := if_pos isMark
  have closes : (Quoting.inside mark).next mark = .outside := by
    rw [Quoting.next, if_neg noEscape, if_pos rfl]
  refine .cons (fun sign => absurd sign noSign) ?_
  rw [opens, parens]
  refine (literal.shelters depth).append (.cons (fun _ outside => by cases outside) ?_)
  rw [closes]
  exact .nil

theorem Shelters.parenthesised {inner : Text} {depth : Nat}
    (shelters : Shelters (depth + 1) .outside inner (depth + 1) .outside) :
    Shelters depth .outside ('(' :: (inner ++ [')'])) depth .outside :=
  .cons (fun sign => by cases sign) (shelters.append (.cons (fun sign => by cases sign) .nil))

/-- Inside of parentheses a balanced text shelters its signs. -/
theorem Balanced.shelters {text : Text} (balanced : Balanced text) (depth : Nat) :
    Shelters (depth + 1) .outside text (depth + 1) .outside := by
  induction balanced generalizing depth with
  | nil => exact .nil
  | @plain char rest noMark noOpen noClose _ ih =>
      have outside : Quoting.outside.next char = .outside := if_neg noMark
      refine .cons (fun _ _ => Nat.succ_ne_zero depth) ?_
      rw [outside, parensBehind, if_neg noOpen, if_neg noClose]
      exact ih depth
  | literal isLiteral _ ih => exact (isLiteral.shelters _).append (ih depth)
  | @group inner rest _ _ innerIh restIh =>
      have whole : '(' :: (inner ++ ')' :: rest) = '(' :: (inner ++ [')']) ++ rest := by simp
      rw [whole]
      exact (innerIh (depth + 1)).parenthesised.append (restIh depth)

theorem IsEnclosed.shelters {text : Text} (enclosed : IsEnclosed text) (depth : Nat) :
    Shelters depth .outside text depth .outside := by
  cases enclosed with
  | literal isLiteral => exact isLiteral.shelters depth
  | group balanced => exact (balanced.shelters depth).parenthesised

/-- What encloses a text is no blank. -/
theorem IsEnclosed.exists_solid {text : Text} (enclosed : IsEnclosed text) :
    ∃ first inner last, text = first :: (inner ++ [last]) ∧ isBlank first = false ∧
      isBlank last = false := by
  cases enclosed with
  | literal isLiteral =>
      obtain ⟨isMark, _⟩ := isLiteral
      have solid := Quoting.isBlank_of_mem_quoteMarks _ isMark
      exact ⟨_, _, _, rfl, solid, solid⟩
  | group => exact ⟨_, _, _, rfl, by decide, by decide⟩

/-! ## What is in an operand -/

/-- A solid text without a sign joins the operands on both sides of it. -/
theorem operands_around {item : Text} (nonempty : item ≠ []) (starts : StartsSolid item)
    (ends : EndsSolid item) (free : '+' ∉ item) (front back : Text) :
    ∃ before left right behind, operands front = before ++ [left] ∧
      operands back = right :: behind ∧
      operands (front ++ (item ++ back)) = before ++ (left ++ (item ++ right)) :: behind := by
  induction front using sign_induction with
  | last front frontFree =>
      have joined : '+' ∉ front ++ item := fun member =>
        (List.mem_append.1 member).elim frontFree free
      rw [← List.append_assoc]
      by_cases member : '+' ∈ back
      · obtain ⟨first, rest, rfl, firstFree⟩ := List.eq_append_cons_of_mem member
        have whole : '+' ∉ front ++ item ++ first := fun member =>
          (List.mem_append.1 member).elim joined firstFree
        have solid : EndsSolid (front ++ item) := ends.append nonempty
        refine ⟨[], front, _, _, operands_of_notMem frontFree,
          operands_append_cons firstFree rest, ?_⟩
        rw [← List.append_assoc, operands_append_cons whole,
          solid.trimEnd_append, List.append_assoc]
        rfl
      · have whole : '+' ∉ front ++ item ++ back := fun inside =>
          (List.mem_append.1 inside).elim joined member
        refine ⟨[], front, _, _, operands_of_notMem frontFree, operands_of_notMem member, ?_⟩
        rw [operands_of_notMem whole, List.append_assoc]
        rfl
  | cut first rest firstFree ih =>
      obtain ⟨before, left, right, behind, frontOperands, backOperands, whole⟩ := ih
      refine ⟨trimEnd first :: before, left, right, behind, ?_, backOperands, ?_⟩
      · rw [operands_append_cons firstFree, frontOperands]
        rfl
      · rw [List.append_assoc, List.cons_append, operands_append_cons firstFree,
          (starts.append nonempty).skipBlanks_append, whole]
        rfl

/-- The arguments are spread by cutting them at every sign, and the blanks next to a cut go with it.
If no sign is escaped, then there is no doubt exactly if each sign stands outside of literals and
parentheses, and then each literal and each group in parentheses is in one operand. -/
theorem spreadOperands_undoubted (arguments : Text) :
    spreadOperands arguments = joinWith ", ".toList (operands arguments) ∧
    '+' ∉ spreadOperands arguments ∧
    (operands arguments).length = arguments.count '+' + 1 ∧
    ((∀ entry ∈ Quoting.outside.annotate arguments, entry.1 = '+' →
        entry.2.isEscaped = false) →
      (plusIsDoubtful arguments = false ↔
        ∀ front back, arguments = front ++ '+' :: back → AtTop 0 .outside front) ∧
      (plusIsDoubtful arguments = false → ∀ front item back, arguments = front ++ (item ++ back) →
        Quoting.outside.after front = .outside → IsEnclosed item →
        ∃ before left right behind, operands front = before ++ [left] ∧
          operands back = right :: behind ∧
          operands arguments = before ++ (left ++ (item ++ right)) :: behind)) := by
  refine ⟨spreadOperands_eq arguments, notMem_spreadOperands arguments,
    length_operands arguments, ?_⟩
  intro unescaped
  have undoubted := plusIsDoubtful_eq_false_iff unescaped
  refine ⟨undoubted, ?_⟩
  rintro noDoubt front item back rfl outside enclosed
  have free : '+' ∉ item := (enclosed.shelters _).notMem (undoubted.1 noDoubt) outside
  obtain ⟨first, inner, last, rfl, firstSolid, lastSolid⟩ := enclosed.exists_solid
  exact operands_around (List.cons_ne_nil _ _) (startsSolid_cons firstSolid)
    (endsSolid_concat lastSolid : EndsSolid (first :: inner ++ [last])) free front back

/-- A string with an escaped quote and a group that holds a literal. -/
def shownTotal : Text :=
  "\"\\\"sum\\\" = (\" + (a - ')') + 1".toList

theorem spreadOperands_undoubted_shownTotal :
    spreadOperands shownTotal = "\"\\\"sum\\\" = (\", (a - ')'), 1".toList ∧
      (∀ entry ∈ Quoting.outside.annotate shownTotal, entry.1 = '+' →
        entry.2.isEscaped = false) ∧
      (∀ front back, shownTotal = front ++ '+' :: back → AtTop 0 .outside front) ∧
      ∃ before left right behind,
        operands "\"\\\"sum\\\" = (\" + ".toList = before ++ [left] ∧
          operands " + 1".toList = right :: behind ∧
          operands shownTotal = before ++ (left ++ ("(a - ')')".toList ++ right)) :: behind := by
  obtain ⟨spread, _, _, guarded⟩ := spreadOperands_undoubted shownTotal
  have unescaped : ∀ entry ∈ Quoting.outside.annotate shownTotal, entry.1 = '+' →
      entry.2.isEscaped = false := by
    decide
  obtain ⟨undoubted, whole⟩ := guarded unescaped
  have noDoubt : plusIsDoubtful shownTotal = false := by decide
  have paren : IsLiteral "')'".toList :=
    .mk (by decide) (.plain (by decide) (by decide) .nil)
  have group : IsEnclosed "(a - ')')".toList :=
    .group (.plain (by decide) (by decide) (by decide) (.plain (by decide) (by decide) (by decide)
      (.plain (by decide) (by decide) (by decide) (.plain (by decide) (by decide) (by decide)
        (.literal paren .nil)))))
  refine ⟨?_, unescaped, undoubted.1 noDoubt, whole noDoubt _ _ _ ?_ ?_ group⟩
  · rw [spread]
    decide
  · decide
  · decide

end Offside
