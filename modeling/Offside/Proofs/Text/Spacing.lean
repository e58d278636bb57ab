import Mathlib.Data.List.Forall2
import Offside.Proofs.Text.Pieces
import Offside.Proofs.Text.Recognition

/-!
# Texts that differ in their blanks

Two texts can be the same but for some runs of blanks. A reader that passes over such a run as
a whole reads the same in both of them, and what it leaves differs in the same way again. A
recogniser that is put together from such readers cuts both texts into the same pieces, up to
blanks.
-/

namespace Offside

/-! ## Runs of blanks -/

/-- A run of blanks. -/
structure IsRun (text : Text) : Prop where
  nonempty : text ≠ []
  blank : AllBlank text

namespace IsRun

variable {run : Text}

theorem exists_cons (isRun : IsRun run) :
    ∃ char rest, isBlank char = true ∧ run = char :: rest := by
  obtain ⟨char, rest, rfl⟩ := List.exists_cons_of_ne_nil isRun.nonempty
  exact ⟨char, rest, isRun.blank char List.mem_cons_self, rfl⟩

/-- No visible character is at the front of a run. -/
theorem head?_any (isRun : IsRun run) {member : Char → Bool}
    (visible : ∀ char, member char = true → isBlank char = false) (rest : Text) :
    (run ++ rest).head?.any member = false := by
  obtain ⟨first, others, blank, rfl⟩ := isRun.exists_cons
  cases inside : member first with
  | false => exact inside
  | true =>
      rw [visible first inside] at blank
      cases blank

theorem span_append (isRun : IsRun run) {member : Char → Bool}
    (visible : ∀ char, member char = true → isBlank char = false) (rest : Text) :
    (run ++ rest).takeWhile member = [] ∧ (run ++ rest).dropWhile member = run ++ rest := by
  have outside := isRun.head?_any visible rest
  obtain ⟨first, others, blank, rfl⟩ := isRun.exists_cons
  have outside : member first = false := outside
  simp [outside]

theorem expect?_eq_none (isRun : IsRun run) {wanted : Char} (solid : isBlank wanted = false)
    (fixed rest : Text) : expect? (wanted :: fixed) (run ++ rest) = none := by
  obtain ⟨first, others, blank, rfl⟩ := isRun.exists_cons
  apply expect?_cons_of_ne
  rintro rfl
  rw [blank] at solid
  cases solid

theorem opensWord_passed (isRun : IsRun run) (before : Option Char) :
    opensWord (passed before run) = true := by
  obtain ⟨first, others, blank, rfl⟩ := isRun.exists_cons
  have opens : opensWord (some first) = true := by simp [opensWord, isWordChar_of_isBlank blank]
  exact opensWord_passed_of_blank
    (fun char member => isRun.blank char (List.mem_cons_of_mem first member)) opens

end IsRun

/-- Which runs of blanks may stand in the place of which. -/
structure Exchange where
  Allows : (run other : Text) → Prop
  isRun : ∀ {run other : Text}, Allows run other → IsRun run ∧ IsRun other

/-- Every run starts with a newline. -/
def Exchange.LedByNewline (exchange : Exchange) : Prop :=
  ∀ {run other : Text}, exchange.Allows run other →
    (∃ rest, run = '\n' :: rest) ∧ ∃ rest, other = '\n' :: rest

/-- Two texts that are the same but for runs of blanks. -/
inductive Respaced (exchange : Exchange) : (one other : Text) → Prop where
  | nil : Respaced exchange [] []
  | char {one other : Text} (char : Char) :
      Respaced exchange one other → Respaced exchange (char :: one) (char :: other)
  | run {run otherRun one other : Text} :
      exchange.Allows run otherRun → Respaced exchange one other →
      Respaced exchange (run ++ one) (otherRun ++ other)

namespace Respaced

variable {exchange : Exchange} {one other front otherFront : Text}

theorem refl (text : Text) : Respaced exchange text text := by
  induction text with
  | nil => exact .nil
  | cons char text ih => exact .char char ih

theorem append (fronts : Respaced exchange front otherFront)
    (respaced : Respaced exchange one other) :
    Respaced exchange (front ++ one) (otherFront ++ other) := by
  induction fronts with
  | nil => exact respaced
  | char char _ ih => exact .char char ih
  | run allowed _ ih =>
      rw [List.append_assoc, List.append_assoc]
      exact .run allowed ih

/-- Visible characters of a class are at the front of both texts or of neither. -/
theorem head?_any (respaced : Respaced exchange one other) {member : Char → Bool}
    (visible : ∀ char, member char = true → isBlank char = false) :
    one.head?.any member = other.head?.any member := by
  cases respaced with
  | nil => rfl
  | char char _ => rfl
  | @run run otherRun rest otherRest allowed _ =>
      obtain ⟨isRun, isOtherRun⟩ := exchange.isRun allowed
      rw [isRun.head?_any visible, isOtherRun.head?_any visible]

/-- Whether a word can start behind two texts is the same question. -/
theorem opensWord_passed (respaced : Respaced exchange one other)
    {before otherBefore : Option Char} (same : opensWord before = opensWord otherBefore) :
    opensWord (passed before one) = opensWord (passed otherBefore other) := by
  induction respaced generalizing before otherBefore with
  | nil => exact same
  | char char _ ih => exact ih rfl
  | run allowed _ ih =>
      obtain ⟨isRun, isOtherRun⟩ := exchange.isRun allowed
      rw [passed_append, passed_append]
      apply ih
      rw [isRun.opensWord_passed, isOtherRun.opensWord_passed]

end Respaced

/-! ## Readers -/

/-- Two positions in two texts, with the same in front of them and behind them but for runs of
blanks. -/
structure Abreast (exchange : Exchange) (one other rest otherRest : Text) : Prop where
  behind : Respaced exchange rest otherRest
  inFront : ∃ front otherFront, Respaced exchange front otherFront ∧
    one = front ++ rest ∧ other = otherFront ++ otherRest

/-- The same value, read up to two such positions. -/
def ReadsSame (exchange : Exchange) (one other : Text) {α : Type} (left right : α × Text) : Prop :=
  left.1 = right.1 ∧ Abreast exchange one other left.2 right.2

/-- Steps that agree one after the other agree together. -/
theorem rel_bind {α β γ δ : Type} {first : α → β → Prop} {second : γ → δ → Prop}
    {left : Option α} {right : Option β} {leftNext : α → Option γ} {rightNext : β → Option δ}
    (agree : Option.Rel first left right)
    (next : ∀ found other, first found other →
      Option.Rel second (leftNext found) (rightNext other)) :
    Option.Rel second (left.bind leftNext) (right.bind rightNext) := by
  cases agree with
  | none => exact .none
  | some related => exact next _ _ related

theorem rel_map {α β γ δ : Type} {first : α → β → Prop} {second : γ → δ → Prop}
    {left : Option α} {right : Option β} {leftImage : α → γ} {rightImage : β → δ}
    (agree : Option.Rel first left right)
    (images : ∀ found other, first found other → second (leftImage found) (rightImage other)) :
    Option.Rel second (left.map leftImage) (right.map rightImage) := by
  cases agree with
  | none => exact .none
  | some related => exact .some (images _ _ related)

theorem rel_guard {condition other : Prop} [Decidable condition] [Decidable other]
    (same : condition ↔ other) :
    Option.Rel (fun _ _ => True) (guard condition : Option Unit) (guard other) := by
  by_cases holds : condition
  · rw [guard_of_true holds, guard_of_true (same.1 holds)]
    exact .some trivial
  · rw [guard_of_false holds, guard_of_false fun holdsOther => holds (same.2 holdsOther)]
    exact .none

theorem rel_getD {α β : Type} {related : α → β → Prop} {left : Option α} {right : Option β}
    (agree : Option.Rel related left right) {fallback : α} {otherFallback : β}
    (fallbacks : related fallback otherFallback) :
    related (left.getD fallback) (right.getD otherFallback) := by
  cases agree with
  | none => exact fallbacks
  | some found => exact found

namespace Abreast

variable {exchange : Exchange} {one other here otherHere : Text}

theorem start (respaced : Respaced exchange one other) : Abreast exchange one other one other where
  behind := respaced
  inFront := ⟨[], [], .nil, rfl, rfl⟩

theorem advance {front otherFront rest otherRest : Text}
    (abreast : Abreast exchange one other (front ++ rest) (otherFront ++ otherRest))
    (fronts : Respaced exchange front otherFront) (behind : Respaced exchange rest otherRest) :
    Abreast exchange one other rest otherRest where
  behind := behind
  inFront := by
    obtain ⟨before, otherBefore, passed, split, otherSplit⟩ := abreast.inFront
    exact ⟨before ++ front, otherBefore ++ otherFront, passed.append fronts, by simp [split],
      by simp [otherSplit]⟩

theorem tail {char : Char} {rest otherRest : Text}
    (abreast : Abreast exchange one other (char :: rest) (char :: otherRest))
    (behind : Respaced exchange rest otherRest) : Abreast exchange one other rest otherRest := by
  rw [← List.singleton_append, ← List.singleton_append (l := otherRest)] at abreast
  exact abreast.advance (.refl [char]) behind

theorem behindRun {run otherRun rest otherRest : Text}
    (abreast : Abreast exchange one other (run ++ rest) (otherRun ++ otherRest))
    (allowed : exchange.Allows run otherRun) (behind : Respaced exchange rest otherRest) :
    Abreast exchange one other rest otherRest := by
  have runs := Respaced.run allowed .nil
  rw [List.append_nil, List.append_nil] at runs
  exact abreast.advance runs behind

theorem expect? {fixed : Text} (visible : ∀ char ∈ fixed, isBlank char = false)
    (abreast : Abreast exchange one other here otherHere) :
    Option.Rel (Abreast exchange one other) (expect? fixed here)
      (Offside.expect? fixed otherHere) := by
  induction fixed generalizing here otherHere with
  | nil => exact .some abreast
  | cons wanted fixed ih =>
      have behind := abreast.behind
      cases behind with
      | nil => exact .none
      | char char behind =>
          by_cases same : char = wanted
          · rw [Offside.expect?, Offside.expect?, if_pos same, if_pos same]
            exact ih (fun other member => visible other (List.mem_cons_of_mem wanted member))
              (abreast.tail behind)
          · rw [expect?_cons_of_ne same, expect?_cons_of_ne same]
            exact .none
      | run allowed behind =>
          obtain ⟨isRun, isOtherRun⟩ := exchange.isRun allowed
          have solid := visible wanted List.mem_cons_self
          rw [isRun.expect?_eq_none solid, isOtherRun.expect?_eq_none solid]
          exact .none

theorem skipBlanks (abreast : Abreast exchange one other here otherHere) :
    Abreast exchange one other (skipBlanks here) (Offside.skipBlanks otherHere) := by
  have behind := abreast.behind
  induction behind with
  | nil => exact abreast
  | char char behind ih =>
      cases blank : isBlank char with
      | true =>
          have skipped : ∀ text, Offside.skipBlanks (char :: text) = Offside.skipBlanks text :=
            fun text => List.dropWhile_cons_of_pos blank
          rw [skipped, skipped]
          exact ih (abreast.tail behind)
      | false =>
          rw [skipBlanks_cons_of_solid blank, skipBlanks_cons_of_solid blank]
          exact abreast
  | run allowed behind ih =>
      obtain ⟨isRun, isOtherRun⟩ := exchange.isRun allowed
      rw [skipBlanks_append isRun.blank, skipBlanks_append isOtherRun.blank]
      exact ih (abreast.behindRun allowed behind)

theorem skipSome?_of_blank {char : Char} (blank : isBlank char = true) (text : Text) :
    Offside.skipSome? isBlank (char :: text) = some (Offside.skipBlanks (char :: text)) := by
  simp [Offside.skipSome?, Offside.skipBlanks, blank]

theorem skipSome? (abreast : Abreast exchange one other here otherHere) :
    Option.Rel (Abreast exchange one other) (skipSome? isBlank here)
      (Offside.skipSome? isBlank otherHere) := by
  have behind := abreast.behind
  have skipped := abreast.skipBlanks
  cases behind with
  | nil => exact .none
  | char char behind =>
      cases blank : isBlank char with
      | true =>
          rw [skipSome?_of_blank blank, skipSome?_of_blank blank]
          exact .some skipped
      | false => simp [Offside.skipSome?, blank]
  | run allowed behind =>
      obtain ⟨⟨char, rest, blank, rfl⟩, otherChar, otherRest, otherBlank, rfl⟩ :=
        (exchange.isRun allowed).imp IsRun.exists_cons IsRun.exists_cons
      rw [List.cons_append, List.cons_append] at skipped ⊢
      rw [skipSome?_of_blank blank, skipSome?_of_blank otherBlank]
      exact .some skipped

/-- The same run of visible characters is taken off both texts. -/
theorem span (abreast : Abreast exchange one other here otherHere) {member : Char → Bool}
    (visible : ∀ char, member char = true → isBlank char = false) :
    here.takeWhile member = otherHere.takeWhile member ∧
      Abreast exchange one other (here.dropWhile member) (otherHere.dropWhile member) := by
  have behind := abreast.behind
  induction behind with
  | nil => exact ⟨rfl, abreast⟩
  | char char behind ih =>
      cases inside : member char with
      | true =>
          obtain ⟨taken, dropped⟩ := ih (abreast.tail behind)
          simpa [inside, taken] using dropped
      | false => simpa [inside] using abreast
  | @run run otherRun rest otherRest allowed behind ih =>
      obtain ⟨isRun, isOtherRun⟩ := exchange.isRun allowed
      obtain ⟨taken, dropped⟩ := isRun.span_append visible rest
      obtain ⟨otherTaken, otherDropped⟩ := isOtherRun.span_append visible otherRest
      rw [taken, otherTaken, dropped, otherDropped]
      exact ⟨rfl, abreast⟩

theorem word? (abreast : Abreast exchange one other here otherHere) :
    Option.Rel (ReadsSame exchange one other) (word? here) (Offside.word? otherHere) := by
  have visible : ∀ char, isWordChar char = true → isBlank char = false := by
    intro char inside
    rw [← Bool.not_eq_true]
    intro blank
    rw [isWordChar_of_isBlank blank] at inside
    cases inside
  obtain ⟨taken, dropped⟩ := abreast.span visible
  rw [Offside.word?, Offside.word?, taken]
  split
  · exact .none
  · exact .some ⟨rfl, dropped⟩

/-- A search ends at the first newline, and so in front of the first exchanged run. -/
theorem shortest? {β : Type} {stop? : Text → Option β} {related : β → β → Prop}
    (led : exchange.LedByNewline)
    (stops : ∀ rest otherRest, Abreast exchange one other rest otherRest →
      Option.Rel related (stop? rest) (stop? otherRest))
    (abreast : Abreast exchange one other here otherHere) :
    Option.Rel (fun left right => left.1 = right.1 ∧ related left.2 right.2)
      (shortest? stop? here) (Offside.shortest? stop? otherHere) := by
  have behind := abreast.behind
  induction behind with
  | nil => exact rel_map (stops _ _ abreast) fun _ _ found => ⟨rfl, found⟩
  | @char rest otherRest char behind ih =>
      have stopped := stops _ _ abreast
      rw [Offside.shortest?, Offside.shortest?]
      generalize stop? (char :: rest) = found, stop? (char :: otherRest) = otherFound at stopped ⊢
      cases stopped with
      | some related => exact .some ⟨rfl, related⟩
      | none =>
          by_cases newline : char = '\n'
          · rw [if_pos newline, if_pos newline]
            exact .none
          · rw [if_neg newline, if_neg newline]
            refine rel_map (ih (abreast.tail behind)) fun left right found => ?_
            exact ⟨congrArg (char :: ·) found.1, found.2⟩
  | @run run otherRun rest otherRest allowed behind ih =>
      have stopped := stops _ _ abreast
      obtain ⟨⟨others, rfl⟩, otherOthers, rfl⟩ := led allowed
      rw [List.cons_append, List.cons_append] at stopped ⊢
      rw [Offside.shortest?, Offside.shortest?]
      generalize stop? ('\n' :: (others ++ rest)) = found,
        stop? ('\n' :: (otherOthers ++ otherRest)) = otherFound at stopped ⊢
      cases stopped with
      | some related => exact .some ⟨rfl, related⟩
      | none => exact .none

end Abreast

/-! ## Pieces -/

namespace Recognizer

variable {α : Type} {recognizer : Recognizer α} {exchange : Exchange}

/-- The same constructs are recognised in respaced texts. -/
def Steady (exchange : Exchange) (recognizer : Recognizer α) : Prop :=
  ∀ {before otherBefore : Option Char} {one other : Text},
    opensWord before = opensWord otherBefore → Respaced exchange one other →
    Option.Rel (ReadsSame exchange one other) (recognizer.at? before one)
      (recognizer.at? otherBefore other)

end Recognizer

/-- Pieces that are the same but for runs of blanks. -/
inductive Aligned (exchange : Exchange) {α : Type} : (pieces others : List (Piece α)) → Prop where
  | nil : Aligned exchange [] []
  | gap {pieces others : List (Piece α)} (char : Char) :
      Aligned exchange pieces others →
      Aligned exchange (.gap char :: pieces) (.gap char :: others)
  | run {run otherRun : Text} {pieces others : List (Piece α)} :
      exchange.Allows run otherRun → Aligned exchange pieces others →
      Aligned exchange (run.map .gap ++ pieces) (otherRun.map .gap ++ others)
  | hit {matched otherMatched : Text} {pieces others : List (Piece α)} (value : α) :
      Respaced exchange matched otherMatched → Aligned exchange pieces others →
      Aligned exchange (.hit matched value :: pieces) (.hit otherMatched value :: others)

/-- What a proper recogniser takes is not empty. -/
theorem Recognizer.Proper.ne_nil {α : Type} {recognizer : Recognizer α}
    (proper : recognizer.Proper) {before : Option Char} {matched rest : Text} {value : α}
    (found : recognizer.at? before (matched ++ rest) = some (value, rest)) : matched ≠ [] := by
  obtain ⟨taken, nonempty, split⟩ := proper _ _ _ _ found
  rwa [List.append_cancel_right split]

/-- A steady recogniser cuts respaced texts into aligned pieces. -/
theorem Recognizer.Steady.aligned {α : Type} {recognizer : Recognizer α} {exchange : Exchange}
    (steady : recognizer.Steady exchange) (proper : recognizer.Proper)
    (visible : recognizer.StartsVisibly) {one other : Text}
    (respaced : Respaced exchange one other) {before otherBefore : Option Char}
    (same : opensWord before = opensWord otherBefore) :
    Aligned exchange (recognizer.piecesFrom .free before one)
      (recognizer.piecesFrom .free otherBefore other) := by
  cases respaced with
  | nil =>
      rw [proper.piecesFrom_nil, proper.piecesFrom_nil]
      exact .nil
  | @run run otherRun rest otherRest allowed behind =>
      obtain ⟨isRun, isOtherRun⟩ := exchange.isRun allowed
      have taken := List.length_pos_iff.2 isRun.nonempty
      rw [piecesFrom_append_of_blank visible isRun.blank,
        piecesFrom_append_of_blank visible isOtherRun.blank]
      apply Aligned.run allowed
      apply steady.aligned proper visible behind
      rw [isRun.opensWord_passed, isOtherRun.opensWord_passed]
  | @char rest otherRest char behind =>
      have agree := steady same (.char char behind)
      generalize found : recognizer.at? before (char :: rest) = result,
        otherFound : recognizer.at? otherBefore (char :: otherRest) = otherResult at agree
      cases agree with
      | none =>
          rw [piecesFrom_of_at?_eq_none found, piecesFrom_of_at?_eq_none otherFound]
          exact .gap char (steady.aligned proper visible behind rfl)
      | @some left right read =>
          obtain ⟨value, left⟩ := left
          obtain ⟨otherValue, otherLeft⟩ := right
          obtain ⟨rfl, abreast⟩ : value = otherValue ∧ Abreast exchange _ _ left otherLeft := read
          obtain ⟨matched, otherMatched, respaced, split, otherSplit⟩ := abreast.inFront
          have nonempty := proper.ne_nil (split ▸ found)
          have otherNonempty := proper.ne_nil (otherSplit ▸ otherFound)
          have shorter : left.length < (char :: rest).length := by
            have taken := List.length_pos_iff.2 nonempty
            rw [split, List.length_append]
            omega
          rw [split] at found ⊢
          rw [otherSplit] at otherFound ⊢
          rw [proper.piecesFrom_of_at?_eq_some nonempty found,
            proper.piecesFrom_of_at?_eq_some otherNonempty otherFound]
          exact .hit value respaced (steady.aligned proper visible abreast.behind
            (respaced.opensWord_passed same))
termination_by one.length
decreasing_by
  · exact shorter
  · exact Nat.lt_succ_self rest.length
  · rw [List.length_append]
    omega

/-! ## What is made of the pieces -/

/-- Exchanged runs have the same number of newlines. -/
def Exchange.KeepsLines (exchange : Exchange) : Prop :=
  ∀ {run other : Text}, exchange.Allows run other → newlines run = newlines other

theorem Respaced.newlines_eq {exchange : Exchange} (keeps : exchange.KeepsLines)
    {one other : Text} (respaced : Respaced exchange one other) :
    newlines one = newlines other := by
  induction respaced with
  | nil => rfl
  | @char one other char _ ih =>
      have head : ∀ text, newlines (char :: text) = newlines [char] + newlines text :=
        newlines_append [char]
      rw [head one, head other, ih]
  | run allowed _ ih => rw [newlines_append, newlines_append, keeps allowed, ih]

/-- Remarks of the same pass, on the same line and for the same reason. -/
structure Remark.Agrees (remark other : Remark) : Prop where
  origin : remark.origin = other.origin
  line : remark.line = other.line
  reason : remark.reason = other.reason

theorem Remark.Agrees.refl (remark : Remark) : remark.Agrees remark :=
  ⟨rfl, rfl, rfl⟩

namespace Aligned

variable {α : Type} {exchange : Exchange} {pieces others : List (Piece α)}

theorem values_eq (aligned : Aligned exchange pieces others) :
    (pieces.filterMap Piece.hit?).map Prod.snd = (others.filterMap Piece.hit?).map Prod.snd := by
  induction aligned with
  | nil => rfl
  | gap char _ ih => exact ih
  | run allowed _ ih =>
      rwa [List.filterMap_append, List.filterMap_append, Recognizer.filterMap_hit?_gaps,
        Recognizer.filterMap_hit?_gaps]
  | hit value _ _ ih => exact congrArg (value :: ·) ih

theorem respaced (aligned : Aligned exchange pieces others) (replacement : α → Text) :
    Respaced exchange (pieces.flatMap (Piece.replaced replacement))
      (others.flatMap (Piece.replaced replacement)) := by
  induction aligned with
  | nil => exact .nil
  | gap char _ ih => exact .char char ih
  | run allowed _ ih =>
      rw [List.flatMap_append, List.flatMap_append, Recognizer.flatMap_replaced_gaps,
        Recognizer.flatMap_replaced_gaps]
      exact .run allowed ih
  | hit value _ _ ih => exact (Respaced.refl (replacement value)).append ih

/-- The drafts made of aligned pieces differ in blanks only, and so do the remarks on them. -/
theorem editPieces (aligned : Aligned exchange pieces others) (keeps : exchange.KeepsLines)
    (origin : String) (verdict : α → Verdict) (index line : Nat) :
    Respaced exchange (editPieces origin (fun _ _ value => verdict value) index line pieces).text
        (Offside.editPieces origin (fun _ _ value => verdict value) index line others).text ∧
      List.Forall₂ Remark.Agrees
        (Offside.editPieces origin (fun _ _ value => verdict value) index line pieces).remarks
        (Offside.editPieces origin (fun _ _ value => verdict value) index line others).remarks := by
  induction aligned generalizing index line with
  | nil => exact ⟨.nil, .nil⟩
  | gap char _ ih =>
      obtain ⟨texts, remarks⟩ := ih index (line + newlines [char])
      exact ⟨.char char texts, remarks⟩
  | @run run otherRun pieces others allowed _ ih =>
      obtain ⟨texts, remarks⟩ := ih index (line + newlines run)
      rw [Recognizer.editPieces_gaps_append, Recognizer.editPieces_gaps_append, ← keeps allowed]
      exact ⟨.run allowed texts, remarks⟩
  | @hit matched otherMatched pieces others value respaced _ ih =>
      obtain ⟨texts, remarks⟩ := ih (index + 1) (line + newlines matched)
      rw [Offside.editPieces, Offside.editPieces, ← respaced.newlines_eq keeps]
      cases verdict value with
      | replace text => exact ⟨(Respaced.refl text).append texts, remarks⟩
      | flag text reason =>
          exact ⟨(Respaced.refl text).append texts, .cons ⟨rfl, rfl, rfl⟩ remarks⟩
      | keep reason => exact ⟨respaced.append texts, .cons ⟨rfl, rfl, rfl⟩ remarks⟩

end Aligned

end Offside
