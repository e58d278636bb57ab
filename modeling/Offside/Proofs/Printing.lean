import Offside.Printing
import Offside.Proofs.Text.Recognition

/-!
# Console output

What the recogniser of print calls takes and leaves, and how a concatenation is spread into
arguments. A `+` that stands between two operands takes the blanks around it along.
-/

namespace Offside

/-- The ending of a print call and what stands behind its name. -/
def printEnding (text : Text) : Ending × Text :=
  match expect? "ln".toList text with
  | some text => (.newline, text)
  | none => (.nothing, text)

theorem printStatement_at? (before : Option Char) (text : Text) :
    printStatement.at? before text =
      (expect? "System.out.print".toList text).bind fun text =>
      (expect? "(".toList (skipBlanks (printEnding text).2)).bind fun behind =>
      (shortest? (expect? ");".toList) behind).bind fun (arguments, rest) =>
      some ({ ending := (printEnding text).1, arguments }, rest) := by
  unfold printStatement printEnding
  simp only [Option.bind_eq_bind]
  cases expect? "System.out.print".toList text with
  | none => rfl
  | some behind =>
      simp only [Option.bind_some]
      cases expect? "ln".toList behind <;> rfl

theorem printEnding_suffix (text : Text) : (printEnding text).2 <:+ text := by
  unfold printEnding
  split
  · next found => exact expect?_suffix found
  · exact List.suffix_rfl

theorem printStatement_encloses :
    printStatement.Encloses "System.out.print".toList ");".toList := by
  intro before text statement rest found
  rw [printStatement_at?] at found
  simp only [Option.bind_eq_some_iff] at found
  rcases found with ⟨behindName, nameFound, behindParen, parenFound, ⟨arguments, left⟩, searched,
    result⟩
  cases result
  rcases shortest?_eq_some searched with ⟨atClose, split, closeFound⟩
  refine ⟨behindName, expect?_eq_some.1 nameFound, ?_⟩
  calc ");".toList ++ left
    _ = atClose := (expect?_eq_some.1 closeFound).symm
    _ <:+ behindParen := ⟨arguments, split.symm⟩
    _ <:+ skipBlanks (printEnding behindName).2 := expect?_suffix parenFound
    _ <:+ (printEnding behindName).2 := skipBlanks_suffix _
    _ <:+ behindName := printEnding_suffix behindName

theorem printStatement_opensWith : printStatement.OpensWith ["System.out.print".toList] :=
  printStatement_encloses.opensWith

/-- The name of the method with an ending, up to the parenthesis. -/
def Ending.method : Ending → Text
  | newline => "System.out.println(".toList
  | nothing => "System.out.print(".toList

/-- What stands behind the part of the name that all print methods have. -/
def Ending.methodTail : Ending → Text
  | newline => "ln(".toList
  | nothing => "(".toList

/-- A print call ends where the search for its end does. -/
theorem printStatement_at?_of_shortest? {arguments behind rest : Text}
    (searched : shortest? (expect? ");".toList) behind = some (arguments, rest))
    (before : Option Char) (ending : Ending) :
    printStatement.at? before (ending.method ++ behind) = some ({ ending, arguments }, rest) := by
  have name : expect? "System.out.print".toList (ending.method ++ behind) =
      some (ending.methodTail ++ behind) := by
    cases ending <;> rfl
  have paren : expect? "(".toList (skipBlanks (printEnding (ending.methodTail ++ behind)).2) =
      some behind := by
    cases ending <;> rfl
  have ends : (printEnding (ending.methodTail ++ behind)).1 = ending := by
    cases ending <;> rfl
  rw [printStatement_at?, name, Option.bind_some, paren, Option.bind_some, searched, ends]
  rfl

theorem printStatement_at?_append {arguments rest : Text} (single : '\n' ∉ arguments)
    (free : ')' ∉ arguments) (before : Option Char) (ending : Ending) :
    printStatement.at? before (ending.method ++ (arguments ++ (");".toList ++ rest))) =
      some ({ ending, arguments }, rest) := by
  apply printStatement_at?_of_shortest?
  apply shortest?_append_of_notMem _ single free (expect?_append _ rest)
  intro char text other
  exact expect?_cons_of_ne other _ text

theorem PrintStatement.render_nothing {arguments : Text}
    (nonempty : spreadOperands (trim arguments) ≠ []) :
    render { ending := .nothing, arguments } =
      "print(".toList ++ spreadOperands (trim arguments) ++ ", end='')".toList := by
  unfold render
  cases operands : spreadOperands (trim arguments) with
  | nil => exact absurd operands nonempty
  | cons char operands => rfl

/-! ## Spreading a concatenation -/

theorem plusSign_at? (before : Option Char) (text : Text) :
    plusSign.at? before text =
      (expect? "+".toList (skipBlanks text)).bind fun rest => some ((), skipBlanks rest) := rfl

theorem plusSign_proper : plusSign.Proper := by
  intro before text value rest found
  rw [plusSign_at?] at found
  rcases Option.bind_eq_some_iff.1 found with ⟨behind, plusFound, result⟩
  cases result
  rcases exists_append_skipBlanks text with ⟨front, _, textSplit⟩
  rcases exists_append_skipBlanks behind with ⟨back, _, behindSplit⟩
  refine ⟨front ++ '+' :: back, by simp, ?_⟩
  calc text
    _ = front ++ skipBlanks text := textSplit
    _ = front ++ '+' :: behind := by rw [expect?_eq_some.1 plusFound]; rfl
    _ = front ++ '+' :: (back ++ skipBlanks behind) := by rw [← behindSplit]
    _ = (front ++ '+' :: back) ++ skipBlanks behind := by simp

theorem plusSign_at?_append {text : Text} (solid : StartsSolid text) (before : Option Char) :
    plusSign.at? before (" + ".toList ++ text) = some ((), text) := by
  have found : plusSign.at? before (" + ".toList ++ text) = some ((), skipBlanks text) := rfl
  rw [found, solid.skipBlanks_eq]

/-- There is no sign inside an operand. -/
theorem plusSign_settles {judge : Unit → Verdict} {operand : Text}
    (solid : ∀ char ∈ operand, isBlank char = false) (free : '+' ∉ operand) (rest : Text)
    {before : Option Char} : plusSign.Settles judge rest before operand operand := by
  induction operand generalizing before with
  | nil => exact .nil
  | cons char operand ih =>
      apply Recognizer.Settles.gap
      · have other : char ≠ '+' := by
          rintro rfl
          exact free List.mem_cons_self
        have missing : expect? "+".toList (char :: (operand ++ rest)) = none :=
          expect?_cons_of_ne other [] _
        rw [plusSign_at?, skipBlanks_cons_of_solid (solid char List.mem_cons_self), missing]
        rfl
      · exact ih (fun other member => solid other (List.mem_cons_of_mem char member))
          fun member => free (List.mem_cons_of_mem char member)

/-- Without literals and parentheses there is no doubt about a sign. -/
theorem plusIsDoubtful_eq_false {arguments : Text}
    (unquoted : ∀ char ∈ arguments, char ∉ quoteMarks) (free : '(' ∉ arguments) :
    plusIsDoubtful arguments = false := by
  rw [plusIsDoubtful]
  induction arguments with
  | nil => rfl
  | cons char arguments ih =>
      have tail := ih (fun other member => unquoted other (List.mem_cons_of_mem char member))
        fun member => free (List.mem_cons_of_mem char member)
      have noParen : char ≠ '(' := by
        rintro rfl
        exact free List.mem_cons_self
      have outside : Quoting.outside.next char = .outside :=
        if_neg (unquoted char List.mem_cons_self)
      simp [Quoting.annotate, hasInnerPlus, outside, tail, noParen]

end Offside
