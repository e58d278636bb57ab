import Offside.Proofs.Program.Passage

/-!
# Output statements

An output statement is recognised as a whole, and its operands become the arguments of a print
call.
-/

namespace Offside

namespace Operands

variable (operands : Operands)

/-- The signs between operands give way to commas. -/
theorem plusSign_settles {before : Option Char} :
    plusSign.Settles (fun _ => .replace ", ".toList) [] before (operands.joined " + ".toList)
      (operands.joined ", ".toList) := by
  rcases operands with ⟨first, rest⟩
  have atom : ∀ (atom : Atom) (rest : Text) (before : Option Char),
      plusSign.Settles (fun _ => .replace ", ".toList) rest before atom.text atom.text := by
    intro atom rest before
    apply Offside.plusSign_settles
    · intro char member
      exact isBlank_eq_false_of_isAlphanum (atom.isAlphanum_of_mem member)
    · intro member
      cases atom.isAlphanum_of_mem member
  apply Recognizer.Settles.append (atom first _ before)
  generalize passed before first.text = behind
  induction rest generalizing behind with
  | nil => exact .nil
  | cons next rest ih =>
      rw [List.flatMap_cons, List.flatMap_cons, List.append_assoc, List.append_assoc]
      have solid : StartsSolid ((next.text ++ rest.flatMap fun atom => " + ".toList ++ atom.text) ++
          []) := by
        rw [List.append_nil]
        exact next.isToken.starts.append next.isToken.nonempty
      apply Recognizer.Settles.hit (by decide) (plusSign_at?_append solid behind) rfl
      exact .append (atom next _ _) (ih _)

theorem spreadOperands_joined :
    spreadOperands (operands.joined " + ".toList) = operands.joined ", ".toList :=
  operands.plusSign_settles.replaceAll plusSign_proper

theorem isExpression_source : IsExpression (operands.joined " + ".toList) :=
  operands.isExpression_joined (by decide)

theorem source_output (ending : Ending) :
    (Statement.output ending operands).source =
      ending.method ++ (operands.joined " + ".toList ++ ");".toList) := by
  cases ending <;> rfl

theorem printStatement_at?_source (ending : Ending) (before : Option Char) (rest : Text) :
    printStatement.at? before ((Statement.output ending operands).source ++ rest) =
      some ({ ending, arguments := operands.joined " + ".toList }, rest) := by
  rw [source_output, List.append_assoc, List.append_assoc]
  exact printStatement_at?_append (operands.isExpression_source.notMem (by decide))
    (operands.isExpression_source.notMem (by decide)) before ending

/-- The call of a print method becomes a call of `print`, without a remark. -/
theorem verdict_output (ending : Ending) :
    PrintStatement.verdict { ending, arguments := operands.joined " + ".toList } =
      .replace (Statement.output ending operands).python := by
  have certain : plusIsDoubtful (operands.joined " + ".toList) = false :=
    plusIsDoubtful_eq_false operands.isExpression_source.unquoted
      (operands.isExpression_source.notMem (by decide))
  have rendered : PrintStatement.render { ending, arguments := operands.joined " + ".toList } =
      (Statement.output ending operands).python := by
    have spread : spreadOperands (trim (operands.joined " + ".toList)) =
        operands.joined ", ".toList := by
      rw [trim_eq_self (operands.isToken_joined _).starts (operands.isToken_joined _).ends,
        spreadOperands_joined]
    cases ending with
    | newline =>
        unfold PrintStatement.render
        rw [spread]
        exact List.append_assoc _ _ _
    | nothing =>
        rw [PrintStatement.render_nothing (by rw [spread]; exact (operands.isToken_joined _).nonempty), spread]
        exact List.append_assoc _ _ _
  rw [PrintStatement.verdict, certain, rendered]
  rfl

end Operands

theorem Item.printStatement_settles (item : Item) {before : Option Char} {rest : Text}
    (closes : ClosesLine rest) :
    printStatement.Settles PrintStatement.verdict rest before (item.textAt 4)
      (item.textAt 5) := by
  have silent : (item.turn == 4) = false → ["System.out.print".toList].all (item.lacks 4) = true →
      printStatement.Settles PrintStatement.verdict rest before (item.textAt 4)
        (item.textAt 5) := by
    intro other lacking
    exact item.settles_of_lacks printStatement_opensWith (by decide) other lacking closes
  cases item with
  | statement content =>
      cases content with
      | output ending operands =>
          have nonempty : (Statement.output ending operands).source ≠ [] := by
            cases ending <;> exact List.cons_ne_nil _ _
          exact .cons_hit nonempty (operands.printStatement_at?_source ending before rest)
            (operands.verdict_output ending)
      | declare | define | assign => exact silent rfl rfl
  | loop | branch | elseBranch | otherwise | close | classHeader | mainHeader | blank =>
      exact silent rfl rfl

end Offside
