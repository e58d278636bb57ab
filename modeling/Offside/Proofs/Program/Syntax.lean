import Offside.Proofs.Layout.Forest
import Offside.Proofs.Loop.Reading
import Offside.Rendition

/-!
# Small programs

A fragment of Java with a Python counterpart for everything in it: declarations, assignments,
output, counted loops and branch chains, nested to any depth. A program has two readings. Its
listing has a statement, a header or a closing brace on each line, and its Python lines are
indented by four spaces for each level of nesting.
-/

namespace Offside

/-! ## Expressions -/

/-- A name: a lower-case letter with digits behind it. -/
structure Name where
  letter : Char
  digits : Text
  lower : letter.isLower = true
  inside : ∀ char ∈ digits, char.isDigit = true

def Name.text (name : Name) : Text :=
  name.letter :: name.digits

/-- An unsigned decimal number. -/
structure Numeral where
  digits : Text
  nonempty : digits ≠ []
  inside : ∀ char ∈ digits, char.isDigit = true

inductive Atom where
  | name (value : Name)
  | numeral (value : Numeral)

def Atom.text : Atom → Text
  | .name value => value.text
  | .numeral value => value.digits

inductive Operator where
  | plus
  | minus
  | times

def Operator.mark : Operator → Text
  | plus => " + ".toList
  | minus => " - ".toList
  | times => " * ".toList

/-- Atoms with operators between them. -/
structure Arithmetic where
  first : Atom
  rest : List (Operator × Atom)

def Arithmetic.text (arithmetic : Arithmetic) : Text :=
  arithmetic.first.text ++ arithmetic.rest.flatMap fun (operator, atom) =>
    operator.mark ++ atom.text

/-- The operands of an output, at least one. -/
structure Operands where
  first : Atom
  rest : List Atom

/-- Operands with a separator between neighbours. -/
def Operands.joined (separator : Text) (operands : Operands) : Text :=
  operands.first.text ++ operands.rest.flatMap fun atom => separator ++ atom.text

inductive Relation where
  | ordered (comparison : Comparison)
  | equal
  | different

def Relation.marks : Relation → Text
  | ordered comparison => comparison.marks
  | equal => ['=', '=']
  | different => ['!', '=']

/-- A relation between two atoms. -/
structure Condition where
  left : Atom
  relation : Relation
  right : Atom

def Condition.text (condition : Condition) : Text :=
  condition.left.text ++ ' ' :: (condition.relation.marks ++ ' ' :: condition.right.text)

/-! ## Statements and headers -/

/-- A statement on a line of its own. -/
inductive Statement where
  | declare (name : Name)
  | define (name : Name) (value : Arithmetic)
  | assign (name : Name) (value : Arithmetic)
  | output (ending : Ending) (operands : Operands)

namespace Statement

def source : Statement → Text
  | declare name => "int ".toList ++ (name.text ++ ";".toList)
  | define name value => "int ".toList ++ (name.text ++ (" = ".toList ++ (value.text ++ ";".toList)))
  | assign name value => name.text ++ (" = ".toList ++ (value.text ++ ";".toList))
  | output .newline operands =>
      "System.out.println(".toList ++ (operands.joined " + ".toList ++ ");".toList)
  | output .nothing operands =>
      "System.out.print(".toList ++ (operands.joined " + ".toList ++ ");".toList)

def python : Statement → Text
  | declare name => name.text ++ " = None".toList
  | define name value | assign name value => name.text ++ (" = ".toList ++ value.text)
  | output .newline operands => "print(".toList ++ (operands.joined ", ".toList ++ ")".toList)
  | output .nothing operands =>
      "print(".toList ++ (operands.joined ", ".toList ++ ", end='')".toList)

end Statement

/-- The header of a loop that counts by one, towards its bound. -/
structure Counting where
  counter : Name
  start : Atom
  comparison : Comparison
  bound : Atom

namespace Counting

/-- The mark of the update: counting goes up below a bound and down above it. -/
def updateMark (counting : Counting) : Text :=
  match counting.comparison with
  | .below | .atMost => "++".toList
  | .above | .atLeast => "--".toList

def source (counting : Counting) : Text :=
  "for (int ".toList ++ (counting.counter.text ++ (" = ".toList ++ (counting.start.text ++
    ("; ".toList ++ (counting.counter.text ++ (" ".toList ++ (counting.comparison.marks ++
      (" ".toList ++ (counting.bound.text ++ ("; ".toList ++ (counting.counter.text ++
        (counting.updateMark ++ ")".toList))))))))))))

/-- The end of the range, and its step unless it is one. -/
def rangeTail (counting : Counting) : Text :=
  match counting.comparison with
  | .below => "):".toList
  | .atMost => " + 1):".toList
  | .above => ", -1):".toList
  | .atLeast => " - 1, -1):".toList

def python (counting : Counting) : Text :=
  "for ".toList ++ (counting.counter.text ++ (" in range(".toList ++ (counting.start.text ++
    (", ".toList ++ (counting.bound.text ++ counting.rangeTail)))))

end Counting

/-! ## Lines -/

/-- What can stand on a line of a listing. -/
inductive Item where
  | statement (content : Statement)
  | loop (counting : Counting)
  | branch (condition : Condition)
  | elseBranch (condition : Condition)
  | otherwise
  | close
  | classHeader
  | mainHeader
  | blank

/-- A line of a listing, without its indentation. -/
def Item.source : Item → Text
  | .statement content => content.source
  | loop counting => counting.source ++ braceTail true
  | branch condition => "if (".toList ++ (condition.text ++ ") \x7b".toList)
  | elseBranch condition => "\x7d else if (".toList ++ (condition.text ++ ") \x7b".toList)
  | otherwise => "\x7d else \x7b".toList
  | close => "\x7d".toList
  | classHeader => "public class Main \x7b".toList
  | mainHeader => "public static void main(String[] args) \x7b".toList
  | blank => []

/-! ## Programs -/

mutual

inductive Program where
  | done
  | simple (statement : Statement) (rest : Program)
  | loop (counting : Counting) (body rest : Program)
  | branch (condition : Condition) (body : Program) (alternative : Alternative)
      (rest : Program)

/-- How a branch goes on behind its body. -/
inductive Alternative where
  | close
  | elseBranch (condition : Condition) (body : Program) (alternative : Alternative)
  | otherwise (body : Program)

end

mutual

/-- The lines of a program. -/
def Program.items : Program → List Item
  | .done => []
  | .simple statement rest => .statement statement :: rest.items
  | .loop counting body rest => .loop counting :: (body.items ++ .close :: rest.items)
  | .branch condition body alternative rest =>
      .branch condition :: (body.items ++ (alternative.items ++ rest.items))

def Alternative.items : Alternative → List Item
  | .close => [.close]
  | .elseBranch condition body alternative =>
      .elseBranch condition :: (body.items ++ alternative.items)
  | .otherwise body => .otherwise :: (body.items ++ [.close])

end

/-- The lines of a program, bare or as the entry point of a class. -/
def Program.listing (program : Program) (wrapped : Bool) : List Item :=
  if wrapped then
    [.classHeader, .mainHeader] ++ program.items ++ [.close, .close]
  else
    program.items

mutual

/-- The lines of a program in Python, at some depth. -/
def Program.python (depth : Nat) : Program → List Text
  | .done => []
  | .simple statement rest => atDepth depth statement.python :: rest.python depth
  | .loop counting body rest =>
      atDepth depth counting.python :: (body.python (depth + 1) ++ rest.python depth)
  | .branch condition body alternative rest =>
      atDepth depth ("if ".toList ++ (condition.text ++ ":".toList)) ::
        (body.python (depth + 1) ++ (alternative.python depth ++ rest.python depth))

def Alternative.python (depth : Nat) : Alternative → List Text
  | .close => []
  | .elseBranch condition body alternative =>
      atDepth depth ("elif ".toList ++ (condition.text ++ ":".toList)) ::
        (body.python (depth + 1) ++ alternative.python depth)
  | .otherwise body => atDepth depth "else:".toList :: body.python (depth + 1)

end

end Offside
