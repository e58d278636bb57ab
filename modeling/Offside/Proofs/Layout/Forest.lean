import Offside.Layout
import Offside.Proofs.Text.Trimming

/-!
# Forests of blocks

The two readings of a nested block structure: lines in which braces delimit the blocks, and
lines in which indentation does. A forest holds statements, blocks that a header or a branch
chain opens, and loose blocks, whose brace opens nothing that Python knows. `Forest.source`
is the first reading and `Forest.layout` the second. A loose block inside a block that is
recognised would take the closing brace of the wrong one, hence `Forest.isWellPlaced`.
-/

namespace Offside

/-! ## What stands on a line -/

/-- A text that a line consists of, apart from indentation and a brace at its end. -/
structure Phrase where
  text : Text
  nonempty : text ≠ []
  trimmed : trim text = text
  /-- There is no brace outside the literals of the text. -/
  bare : ∀ marked ∈ Quoting.outside.annotate text, isBareBrace marked = false
  /-- Every literal that the text opens is closed in it. -/
  closed : Quoting.outside.after text = .outside

/-- A phrase that opens no block. -/
structure PlainPhrase extends Phrase where
  noColon : text.getLast? ≠ some ':'
  noBranch : continuesBranch text = false

/-- A phrase that opens a block, and is not the next part of a branch. -/
structure HeaderPhrase extends Phrase where
  colon : text.getLast? = some ':'
  noBranch : continuesBranch text = false

/-- The next part of a branch, with a condition. -/
def elifText (condition : Phrase) : Text :=
  "elif ".toList ++ condition.text ++ ":".toList

theorem elifText_eq (condition : Phrase) :
    elifText condition = "elif ".toList ++ condition.text ++ ":".toList := rfl

/-- The last part of a branch. -/
def elseText : Text :=
  "else:".toList

/-- A brace behind a line, or nothing. -/
def braceTail (brace : Bool) : Text :=
  if brace then " \x7b".toList else []

/-- The line that closes a block. -/
def closingLine : Text :=
  "\x7d".toList

/-! ## Forests -/

mutual

inductive Forest where
  | empty
  | statement (phrase : PlainPhrase) (rest : Forest)
  /-- A block, or the branch chain that starts with it. -/
  | block (header : HeaderPhrase) (brace : Bool) (body : Forest) (chain : Chain)
      (rest : Forest)
  /-- A block of braces alone, with or without a phrase in front of the opening brace. -/
  | loose (opener : Option PlainPhrase) (body rest : Forest)

/-- How a block goes on behind its body. -/
inductive Chain where
  | close
  | elif (condition : Phrase) (brace : Bool) (body : Forest) (chain : Chain)
  | otherwise (brace : Bool) (body : Forest)

end

/-- The line that opens a loose block. -/
def openerLine : Option PlainPhrase → Text
  | none => "\x7b".toList
  | some phrase => phrase.text ++ braceTail true

mutual

/-- The lines of a forest in braces, without indentation. -/
def Forest.source : Forest → List Text
  | .empty => []
  | .statement phrase rest => phrase.text :: rest.source
  | .block header brace body chain rest =>
      (header.text ++ braceTail brace) :: (body.source ++ (chain.source ++ rest.source))
  | .loose opener body rest =>
      openerLine opener :: (body.source ++ closingLine :: rest.source)

def Chain.source : Chain → List Text
  | .close => [closingLine]
  | .elif condition brace body chain =>
      (elifText condition ++ braceTail brace) :: (body.source ++ chain.source)
  | .otherwise brace body => (elseText ++ braceTail brace) :: (body.source ++ [closingLine])

end

/-- A text behind four spaces for each level of depth. -/
def atDepth (depth : Nat) (text : Text) : Text :=
  List.replicate (4 * depth) ' ' ++ text

mutual

/-- The lines of a forest at some depth, without braces. The parts of a chain stand at the
depth of its header, and a loose block adds no depth. -/
def Forest.layout (depth : Nat) : Forest → List Text
  | .empty => []
  | .statement phrase rest => atDepth depth phrase.text :: rest.layout depth
  | .block header _ body chain rest =>
      atDepth depth header.text ::
        (body.layout (depth + 1) ++ (chain.layout depth ++ rest.layout depth))
  | .loose opener body rest =>
      (opener.elim [] fun phrase => atDepth depth phrase.text) ::
        (body.layout depth ++ rest.layout depth)

def Chain.layout (depth : Nat) : Chain → List Text
  | .close => []
  | .elif condition _ body chain =>
      atDepth depth (elifText condition) :: (body.layout (depth + 1) ++ chain.layout depth)
  | .otherwise _ body => atDepth depth elseText :: body.layout (depth + 1)

end

mutual

/-- Whether there is no loose block in a forest. -/
def Forest.isTight : Forest → Bool
  | .empty => true
  | .statement _ rest => rest.isTight
  | .block _ _ body chain rest => body.isTight && chain.isTight && rest.isTight
  | .loose _ _ _ => false

def Chain.isTight : Chain → Bool
  | .close => true
  | .elif _ _ body chain => body.isTight && chain.isTight
  | .otherwise _ body => body.isTight

end

/-- Whether loose blocks stand in loose blocks only. -/
def Forest.isWellPlaced : Forest → Bool
  | .empty => true
  | .statement _ rest => rest.isWellPlaced
  | .block _ _ body chain rest => body.isTight && chain.isTight && rest.isWellPlaced
  | .loose _ body rest => body.isWellPlaced && rest.isWellPlaced

/-- Lines that are the given texts, each behind an indentation of its own. -/
inductive IndentedLines (isIndent : Char → Bool) : (lines texts : List Text) → Prop where
  | nil : IndentedLines isIndent [] []
  | cons (indent text : Text) {lines texts : List Text} :
      (∀ char ∈ indent, isIndent char = true) → IndentedLines isIndent lines texts →
        IndentedLines isIndent ((indent ++ text) :: lines) (text :: texts)

end Offside
