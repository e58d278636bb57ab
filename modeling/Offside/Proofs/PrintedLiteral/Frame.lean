import Offside.Proofs.Layout.Delimiters
import Offside.Proofs.PrintedLiteral.Shedding
import Offside.Proofs.Text.Framing

/-!
# A printed literal on its way through the passes

A statement that prints a literal is a frame around the content of the literal. The passes for
branches, spellings and names do not know of literals: they do to the content what they would do
to it if it stood alone, and leave the frame. The passes for console input and loops find nothing
in the statement unless the content ends it early or holds a console reader.
-/

namespace Offside

/-- What stands in front of the content of a printed literal. -/
def literalFront : Text :=
  "System.out.println(\"".toList

/-- What stands behind the content of a printed literal. -/
def literalTail : Text :=
  '"' :: ");".toList

/-- A statement that prints a literal. -/
def printedLiteral (content : Text) : Text :=
  literalFront ++ (content ++ literalTail)

/-- What stands in front of the content of a literal in a call of `print`. -/
def callFront : Text :=
  "print(\"".toList

/-- What stands behind the content of a literal in a call of `print`. -/
def callTail : Text :=
  '"' :: ")".toList

/-- A call of `print` with a literal. -/
def printCall (content : Text) : Text :=
  callFront ++ (content ++ callTail)

theorem literalFront_append (rest : Text) :
    literalFront ++ rest = "System.out.println(".toList ++ '"' :: rest := by
  have front : literalFront = "System.out.println(".toList ++ ['"'] := rfl
  rw [front, List.append_assoc, List.singleton_append]

theorem callFront_append (rest : Text) :
    callFront ++ rest = "print(".toList ++ '"' :: rest := by
  have front : callFront = "print(".toList ++ ['"'] := rfl
  rw [front, List.append_assoc, List.singleton_append]

/-- A text that can stand in a literal as it is. -/
structure PlainContent (content : Text) : Prop where
  quote : '"' ∉ content
  backslash : '\\' ∉ content
  newline : '\n' ∉ content

/-! ## Headers of branches -/

theorem condition?_append_tail (text : Text) :
    condition? (text ++ literalTail) =
      (condition? text).map fun found => (found.1, found.2 ++ literalTail) := by
  rw [condition?_eq, condition?_eq, literalTail,
    expect?_skipBlanks_append_cons (by decide) (by decide)]
  refine map_bind_eq_bind_map fun behind => ?_
  refine shortest?_append_tail ?_ rfl rfl behind
  intro here
  rw [expect?_append_cons (by decide)]
  exact map_bind_eq_bind_map fun atBrace =>
    expect?_skipBlanks_append_cons (by decide) (by decide) atBrace _

theorem else?_append_tail (before : Option Char) (text : Text) :
    else? before (text ++ literalTail) = (else? before text).map (· ++ literalTail) := by
  cases text with
  | nil => cases opens : opensWord before <;> simp [else?, literalTail, expect?]
  | cons char text =>
      by_cases closing : char = '\x7d'
      · subst closing
        exact expect?_skipBlanks_append_cons (by decide) (by decide) text _
      · have keyword : ∀ text, else? before (char :: text) =
            Option.bind (guard (opensWord before = true)) fun _ =>
              expect? "else".toList (char :: text) := by
          intro text
          simp [else?, closing]
        rw [List.cons_append, keyword, keyword, ← List.cons_append, literalTail,
          expect?_append_cons (by decide), Option.map_bind]
        rfl

/-- Behind the quote a word can start, as at the start of a text. -/
theorem else?_quote (text : Text) : else? (some '"') text = else? none text := by
  unfold else?
  split <;> rfl

theorem elseIfHeader_frames : elseIfHeader.Frames literalFront literalTail where
  proper := elseIfHeader_proper
  front_silent := elseIfHeader_opensWith.silent_of_apart (by decide)
  fresh text := by
    rw [elseIfHeader_at?, elseIfHeader_at?, ← else?_quote]
    rfl
  stops before text := by
    rw [elseIfHeader_at?, elseIfHeader_at?, else?_append_tail]
    refine map_bind_eq_bind_map fun behindElse => ?_
    rw [literalTail, skipSome?_append_cons (by decide)]
    refine map_bind_eq_bind_map fun atIf => ?_
    rw [expect?_append_cons (by decide)]
    exact map_bind_eq_bind_map condition?_append_tail
  tail_silent _ := elseIfHeader_opensWith.silent_of_apart (by decide) []

theorem ifHeader_frames : ifHeader.Frames literalFront literalTail where
  proper := ifHeader_proper
  front_silent := ifHeader_opensWith.silent_of_apart (by decide)
  fresh _ := rfl
  stops before text := by
    rw [ifHeader_at?, ifHeader_at?, Option.map_bind, literalTail, expect?_append_cons (by decide)]
    refine Option.bind_congr fun _ _ => ?_
    exact map_bind_eq_bind_map condition?_append_tail
  tail_silent _ := ifHeader_opensWith.silent_of_apart (by decide) []

theorem elseHeader_frames : elseHeader.Frames literalFront literalTail where
  proper := elseHeader_proper
  front_silent := elseHeader_opensWith.silent_of_apart (by decide)
  fresh text := by
    rw [elseHeader_at?, elseHeader_at?, ← else?_quote]
    rfl
  stops before text := by
    rw [elseHeader_at?, elseHeader_at?, else?_append_tail]
    refine map_bind_eq_bind_map fun behindElse => ?_
    rw [literalTail, expect?_skipBlanks_append_cons (by decide) (by decide)]
    exact map_bind_eq_bind_map fun _ => rfl
  tail_silent _ := elseHeader_opensWith.silent_of_apart (by decide) []

/-- The headers in the content of a literal are converted as if the content stood alone. -/
theorem convertBranches_printedLiteral (content : Text) :
    convertBranches (printedLiteral content) = printedLiteral (convertBranches content) := by
  simp only [convertBranches, printedLiteral, elseIfHeader_frames.replaceAll_eq,
    ifHeader_frames.replaceAll_eq, elseHeader_frames.replaceAll_eq]

/-! ## Names -/

theorem equalsSign_frames : equalsSign.Frames callFront callTail where
  proper := equalsSign_proper
  front_silent _ :=
    .cons rfl (.cons rfl (.cons rfl (.cons rfl (.cons rfl (.cons rfl (.cons rfl .nil))))))
  fresh _ := rfl
  stops before text := by
    have first : (text ++ callTail).head?.any isIdentifierStart =
        text.head?.any isIdentifierStart := by
      cases text <;> rfl
    rw [equalsSign_at?, equalsSign_at?, first, Option.map_bind]
    refine Option.bind_congr fun _ _ => ?_
    rw [Function.comp, Option.map_bind]
    refine Option.bind_congr fun _ _ => ?_
    rw [Function.comp, callTail, takeWhile_append_cons (by decide),
      dropWhile_append_cons (by decide), expect?_skipBlanks_append_cons (by decide) (by decide)]
    refine map_bind_eq_bind_map fun behind => ?_
    rw [expect?_append_cons (by decide)]
    cases expect? "=".toList behind <;> rfl
  tail_silent _ := by
    refine .cons ?_ (.cons ?_ .nil)
    · rw [equalsSign_at?]
      cases (guard (opensWord _ = true) : Option Unit) <;> rfl
    · rfl

/-- The names that are assigned to in a call are those that its literal assigns to. -/
theorem hiddenBuiltins_printCall (content : Text) :
    hiddenBuiltins (printCall content) = hiddenBuiltins content := by
  simp only [hiddenBuiltins, assignedNames, printCall, equalsSign_frames.hits_eq]

end Offside
