import Offside.Proofs.Branch
import Offside.Proofs.Loop.Clauses
import Offside.Proofs.Printing
import Offside.Proofs.Reading
import Offside.Proofs.Text.Spacing

/-!
# Steadiness of the recognisers

Every recogniser of a construct that may go over several lines finds the same constructs when
the lines are indented differently. Blanks are passed over as a whole, and the parts that are
kept stand on one line each, so that no indentation is part of them.
-/

namespace Offside

section Steady

variable {exchange : Exchange}

/-! ## Console input -/

theorem consoleReader_steady (led : exchange.LedByNewline) : consoleReader.Steady exchange := by
  intro before otherBefore one other _ respaced
  rw [consoleReader_at?, consoleReader_at?]
  refine rel_bind ((Abreast.start respaced).expect? (by decide)) fun _ _ behindType => ?_
  refine rel_bind behindType.skipSome? fun _ _ atName => ?_
  refine rel_bind atName.word? fun ⟨_, _⟩ ⟨_, _⟩ ⟨_, behindName⟩ => ?_
  refine rel_bind (behindName.skipBlanks.expect? (by decide)) fun _ _ behindEquals => ?_
  refine rel_bind (behindEquals.skipBlanks.expect? (by decide)) fun _ _ behindNew => ?_
  refine rel_bind behindNew.skipSome? fun _ _ atSecond => ?_
  refine rel_bind (atSecond.expect? (by decide)) fun _ _ behindSecond => ?_
  refine rel_bind (behindSecond.shortest? led fun _ _ here => here.expect? (by decide))
    fun ⟨_, _⟩ ⟨_, _⟩ ⟨_, left⟩ => ?_
  exact .some ⟨rfl, left⟩

theorem readStatement_steady : readStatement.Steady exchange := by
  intro before otherBefore one other opens respaced
  rw [readStatement_at?, readStatement_at?]
  refine rel_bind (rel_guard (by rw [opens])) fun _ _ _ => ?_
  refine rel_bind (Abreast.start respaced).word?
    fun ⟨target, _⟩ ⟨_, _⟩ ⟨sameTarget, behindTarget⟩ => ?_
  refine rel_bind (behindTarget.skipBlanks.expect? (by decide)) fun _ _ behindEquals => ?_
  refine rel_bind behindEquals.skipBlanks.word? fun ⟨_, _⟩ ⟨_, _⟩ ⟨_, behindReader⟩ => ?_
  refine rel_bind (behindReader.expect? (by decide)) fun _ _ behindDot => ?_
  refine rel_bind behindDot.word? fun ⟨method, _⟩ ⟨_, _⟩ ⟨sameMethod, behindMethod⟩ => ?_
  cases sameTarget
  cases sameMethod
  refine rel_bind (rel_guard Iff.rfl) fun _ _ _ => ?_
  refine rel_bind (behindMethod.expect? (by decide)) fun _ _ left => ?_
  exact .some ⟨rfl, left⟩

/-! ## Counted loops -/

variable {one other here otherHere : Text}

theorem counter?_eq (text : Text) :
    counter? text = (word? text).bind fun (first, behind) =>
      some (if counterTypes.any fun type => type.toList = first then
        ((skipSome? isBlank behind).bind word?).getD (first, behind) else (first, behind)) := by
  cases found : word? text with
  | none =>
      rw [counter?, found]
      rfl
  | some result =>
      rw [counter?_of_word? found, Option.bind_some]
      split <;> simp_all

namespace Abreast

theorem counter? (abreast : Abreast exchange one other here otherHere) :
    Option.Rel (ReadsSame exchange one other) (counter? here) (Offside.counter? otherHere) := by
  rw [counter?_eq, counter?_eq]
  refine rel_bind abreast.word? fun ⟨first, _⟩ ⟨_, _⟩ ⟨sameFirst, behind⟩ => ?_
  cases sameFirst
  have second := rel_bind behind.skipSome? fun _ _ atSecond => atSecond.word?
  refine .some ?_
  split
  · exact rel_getD second ⟨rfl, behind⟩
  · exact ⟨rfl, behind⟩

theorem updateClause? (led : exchange.LedByNewline)
    (abreast : Abreast exchange one other here otherHere) :
    Option.Rel (ReadsSame exchange one other) (updateClause? here)
      (Offside.updateClause? otherHere) :=
  abreast.skipBlanks.shortest? led fun _ _ here => here.skipBlanks.expect? (by decide)

theorem conditionClause? (led : exchange.LedByNewline)
    (abreast : Abreast exchange one other here otherHere) :
    Option.Rel (fun left right => left.1 = right.1 ∧ ReadsSame exchange one other left.2 right.2)
      (conditionClause? here) (Offside.conditionClause? otherHere) :=
  abreast.skipBlanks.shortest? led fun _ _ here =>
    rel_bind (here.expect? (by decide)) fun _ _ behind => behind.updateClause? led

theorem startClause? (led : exchange.LedByNewline)
    (abreast : Abreast exchange one other here otherHere) :
    Option.Rel (fun left right => left.1 = right.1 ∧ left.2.1 = right.2.1 ∧
        ReadsSame exchange one other left.2.2 right.2.2)
      (startClause? here) (Offside.startClause? otherHere) :=
  abreast.skipBlanks.shortest? led fun _ _ here =>
    rel_bind (here.expect? (by decide)) fun _ _ behind => behind.conditionClause? led

end Abreast

theorem countedLoop_steady (led : exchange.LedByNewline) : countedLoop.Steady exchange := by
  intro before otherBefore one other opens respaced
  rw [countedLoop_at?, countedLoop_at?]
  refine rel_bind (rel_guard (by rw [opens])) fun _ _ _ => ?_
  refine rel_bind ((Abreast.start respaced).expect? (by decide)) fun _ _ behindFor => ?_
  refine rel_bind (behindFor.skipBlanks.expect? (by decide)) fun _ _ behindParen => ?_
  refine rel_bind behindParen.skipBlanks.counter?
    fun ⟨counter, _⟩ ⟨_, _⟩ ⟨sameCounter, behindCounter⟩ => ?_
  refine rel_bind (behindCounter.skipBlanks.expect? (by decide)) fun _ _ behindEquals => ?_
  refine rel_bind (behindEquals.startClause? led) fun ⟨start, condition, update, _⟩ ⟨_, _, _, _⟩
    ⟨sameStart, sameCondition, sameUpdate, left⟩ => ?_
  cases sameCounter
  cases sameStart
  cases sameCondition
  cases sameUpdate
  exact .some ⟨rfl, left⟩

/-! ## Branches -/

theorem else?_eq (before : Option Char) (text : Text) :
    else? before text =
      match expect? "\x7d".toList text with
      | some rest => expect? "else".toList (skipBlanks rest)
      | none => Option.bind (guard (opensWord before = true)) fun _ =>
          expect? "else".toList text := by
  cases text with
  | nil => rfl
  | cons char text =>
      by_cases brace : char = '\x7d'
      · subst brace
        rfl
      · have missing : expect? "\x7d".toList (char :: text) = none :=
          expect?_cons_of_ne brace [] text
        rw [missing]
        unfold else?
        split
        · next same => exact absurd (List.cons.inj same).1 brace
        · rfl

namespace Abreast

theorem else? {before otherBefore : Option Char}
    (opens : opensWord before = opensWord otherBefore)
    (abreast : Abreast exchange one other here otherHere) :
    Option.Rel (Abreast exchange one other) (else? before here)
      (Offside.else? otherBefore otherHere) := by
  have brace : Option.Rel (Abreast exchange one other) (Offside.expect? "\x7d".toList here)
      (Offside.expect? "\x7d".toList otherHere) := abreast.expect? (by decide)
  rw [else?_eq, else?_eq]
  generalize Offside.expect? "\x7d".toList here = found,
    Offside.expect? "\x7d".toList otherHere = otherFound at brace ⊢
  cases brace with
  | none => exact rel_bind (rel_guard (by rw [opens])) fun _ _ _ => abreast.expect? (by decide)
  | some behind => exact behind.skipBlanks.expect? (by decide)

theorem condition? (led : exchange.LedByNewline)
    (abreast : Abreast exchange one other here otherHere) :
    Option.Rel (ReadsSame exchange one other) (condition? here) (Offside.condition? otherHere) := by
  rw [condition?_eq, condition?_eq]
  refine rel_bind (abreast.skipBlanks.expect? (by decide)) fun _ _ behindParen => ?_
  refine behindParen.shortest? led fun _ _ here => ?_
  exact rel_bind (here.expect? (by decide)) fun _ _ behind => behind.skipBlanks.expect? (by decide)

end Abreast

theorem elseIfHeader_steady (led : exchange.LedByNewline) : elseIfHeader.Steady exchange := by
  intro before otherBefore one other opens respaced
  rw [elseIfHeader_at?, elseIfHeader_at?]
  refine rel_bind ((Abreast.start respaced).else? opens) fun _ _ behindElse => ?_
  refine rel_bind behindElse.skipSome? fun _ _ atIf => ?_
  exact rel_bind (atIf.expect? (by decide)) fun _ _ behindIf => behindIf.condition? led

theorem ifHeader_steady (led : exchange.LedByNewline) : ifHeader.Steady exchange := by
  intro before otherBefore one other opens respaced
  rw [ifHeader_at?, ifHeader_at?]
  refine rel_bind (rel_guard (by rw [opens])) fun _ _ _ => ?_
  exact rel_bind ((Abreast.start respaced).expect? (by decide)) fun _ _ behindIf =>
    behindIf.condition? led

theorem elseHeader_steady : elseHeader.Steady exchange := by
  intro before otherBefore one other opens respaced
  rw [elseHeader_at?, elseHeader_at?]
  refine rel_bind ((Abreast.start respaced).else? opens) fun _ _ behindElse => ?_
  refine rel_bind (behindElse.skipBlanks.expect? (by decide)) fun _ _ left => ?_
  exact .some ⟨rfl, left⟩

/-! ## Console output -/

theorem Abreast.printEnding (abreast : Abreast exchange one other here otherHere) :
    ReadsSame exchange one other (printEnding here) (Offside.printEnding otherHere) := by
  have ending : Option.Rel (Abreast exchange one other) (Offside.expect? "ln".toList here)
      (Offside.expect? "ln".toList otherHere) := abreast.expect? (by decide)
  rw [Offside.printEnding, Offside.printEnding]
  generalize Offside.expect? "ln".toList here = found,
    Offside.expect? "ln".toList otherHere = otherFound at ending ⊢
  cases ending with
  | none => exact ⟨rfl, abreast⟩
  | some behind => exact ⟨rfl, behind⟩

theorem printStatement_steady (led : exchange.LedByNewline) : printStatement.Steady exchange := by
  intro before otherBefore one other _ respaced
  rw [printStatement_at?, printStatement_at?]
  refine rel_bind ((Abreast.start respaced).expect? (by decide)) fun _ _ behindName => ?_
  obtain ⟨sameEnding, behindMethod⟩ := behindName.printEnding
  rw [sameEnding]
  refine rel_bind (behindMethod.skipBlanks.expect? (by decide)) fun _ _ behindParen => ?_
  refine rel_bind (behindParen.shortest? led fun _ _ here => here.expect? (by decide))
    fun ⟨_, _⟩ ⟨_, _⟩ ⟨sameArguments, left⟩ => ?_
  cases sameArguments
  exact .some ⟨rfl, left⟩

end Steady

end Offside
