import Offside.Proofs.Branch
import Offside.Proofs.Layout.Recovery

/-!
# Trees of branches

Statements and branch chains nested to any depth, together with the blanks between the tokens of
their headers. `BranchTree.items` lists what stands one below the other in the source: a
statement, a header with the closing brace in front of it, or the brace that ends a chain. Only
the blanks inside a header may hold newlines. `BranchTree.layout` is the same tree as indented
lines.
-/

namespace Offside

/-! ## Texts in which no branch starts -/

/-- A text of one line that holds neither braces nor the keywords of branches. -/
structure InertText where
  text : Text
  single : '\n' ∉ text
  braceFree : BraceFree text
  noIf : ¬"if".toList <:+: text
  noElse : ¬"else".toList <:+: text

/-- A statement, which opens no block. -/
structure InertLine extends InertText where
  nonempty : text ≠ []
  trimmed : trim text = text
  noColon : text.getLast? ≠ some ':'

/-- Blanks between two tokens, newlines among them or not. -/
structure Blanks where
  text : Text
  blank : AllBlank text

theorem Blanks.notMem (blanks : Blanks) {char : Char} (solid : isBlank char = false) :
    char ∉ blanks.text := by
  intro member
  rw [blanks.blank char member] at solid
  cases solid

/-- The Python header of a branch with a condition. -/
def InertText.header (keyword : Text) (condition : InertText) : Text :=
  keyword ++ ' ' :: (condition.text ++ ':' :: [])

/-! ## Headers -/

/-- What stands behind the `if` of a branch. -/
structure BranchHeader where
  toParen : Blanks
  condition : InertText
  toBrace : Blanks

/-- A further branch of a chain. It starts at the end of the branch before it. -/
structure ChainedHeader extends BranchHeader where
  toElse : Blanks
  toIf : Blanks
  apart : toIf.text ≠ []

/-- The last branch of a chain, if it has no condition. -/
structure ElseHeader where
  toElse : Blanks
  toBrace : Blanks

/-- The condition in its parentheses, with the opening brace. -/
def BranchHeader.tail (header : BranchHeader) : Text :=
  conditionText header.toParen.text header.condition.text header.toBrace.text

/-- What stands below each other in the source. -/
inductive BranchItem where
  | statement (line : InertLine)
  | opening (header : BranchHeader)
  | chained (header : ChainedHeader)
  | otherwise (header : ElseHeader)
  | close

namespace BranchItem

def source : BranchItem → Text
  | statement line => line.text
  | opening header => "if".toList ++ header.tail
  | chained header =>
      "\x7d".toList ++ (header.toElse.text ++ ("else".toList ++ (header.toIf.text ++
        ("if".toList ++ header.tail))))
  | otherwise header =>
      "\x7d".toList ++ (header.toElse.text ++ ("else".toList ++ (header.toBrace.text ++
        "\x7b".toList)))
  | close => closingLine

/-- The line behind the passes over the headers. -/
def target : BranchItem → Text
  | statement line => line.text
  | opening header => header.condition.header "if".toList
  | chained header => header.condition.header "elif".toList
  | otherwise _ => elseText
  | close => closingLine

end BranchItem

/-! ## Trees -/

mutual

/-- Statements and chains of branches, one behind the other. -/
inductive BranchTree where
  | empty
  | statement (line : InertLine) (rest : BranchTree)
  | branch (header : BranchHeader) (body : BranchTree) (chain : BranchChain) (rest : BranchTree)

/-- How a branch goes on behind its body. -/
inductive BranchChain where
  | close
  | elseIf (header : ChainedHeader) (body : BranchTree) (chain : BranchChain)
  | otherwise (header : ElseHeader) (body : BranchTree)

end

mutual

def BranchTree.items : BranchTree → List BranchItem
  | .empty => []
  | .statement line rest => .statement line :: rest.items
  | .branch header body chain rest =>
      .opening header :: (body.items ++ (chain.items ++ rest.items))

def BranchChain.items : BranchChain → List BranchItem
  | .close => [.close]
  | .elseIf header body chain => .chained header :: (body.items ++ chain.items)
  | .otherwise header body => .otherwise header :: (body.items ++ [.close])

end

mutual

/-- The lines of a tree at some depth. All branches of a chain stand at the depth of its `if`. -/
def BranchTree.layout (depth : Nat) : BranchTree → List Text
  | .empty => []
  | .statement line rest => atDepth depth line.text :: rest.layout depth
  | .branch header body chain rest =>
      atDepth depth (header.condition.header "if".toList) ::
        (body.layout (depth + 1) ++ (chain.layout depth ++ rest.layout depth))

def BranchChain.layout (depth : Nat) : BranchChain → List Text
  | .close => []
  | .elseIf header body chain =>
      atDepth depth (header.condition.header "elif".toList) ::
        (body.layout (depth + 1) ++ chain.layout depth)
  | .otherwise _ body => atDepth depth elseText :: body.layout (depth + 1)

end

/-! ## Python headers -/

namespace InertText

variable (condition : InertText) {keyword : Text}

theorem notMem_header {char : Char} (noMark : char ∉ [' ', ':']) (noKeyword : char ∉ keyword)
    (noText : char ∉ condition.text) : char ∉ condition.header keyword := by
  simp only [List.mem_cons, List.not_mem_nil, or_false, not_or] at noMark
  simp [header, noMark, noKeyword, noText]

theorem newline_notMem_header (single : '\n' ∉ keyword) : '\n' ∉ condition.header keyword :=
  condition.notMem_header (by decide) single condition.single

theorem braceFree_header (free : BraceFree keyword) : BraceFree (condition.header keyword) where
  opening := condition.notMem_header (by decide) free.opening condition.braceFree.opening
  closing := condition.notMem_header (by decide) free.closing condition.braceFree.closing

/-- No keyword reaches across the blank or the colon of a header. -/
theorem noElse_header (noKeyword : ¬"else".toList <:+: keyword) :
    ¬"else".toList <:+: condition.header keyword := by
  apply not_isInfix_append_cons (by decide) noKeyword
  exact not_isInfix_append_cons (by decide) condition.noElse (by decide)

theorem getLast?_header : (condition.header keyword).getLast? = some ':' := by
  rw [header, List.getLast?_append, List.getLast?_cons, List.getLast?_append]
  rfl

theorem trim_header (starts : StartsSolid keyword) (nonempty : keyword ≠ []) :
    trim (condition.header keyword) = condition.header keyword :=
  trim_eq_self (starts.append nonempty)
    (endsSolid_of_getLast? condition.getLast?_header (by decide))

end InertText

end Offside
