import Offside.Draft
import Offside.Pass
import Offside.Text.Quoting

/-!
# Layout

Blocks in braces become indented blocks. The braces outside literals disappear, a line that
starts with a closing brace disappears as a whole, and every other line is set at the depth of
the blocks around it. Only a header, which ends in a colon, and the continuation of a branch
open a block. The other opening braces are loose: they only entitle a later closing brace to
stand where no block is open.
-/

namespace Offside

/-- One level of indentation. -/
def levelIndent : String := "    "

/-- Whether a character is a brace outside every literal. -/
def isBareBrace : Char × Quoting → Bool
  | (char, quoting) => quoting = .outside && (char = '{' || char = '}')

/-- A line without the braces outside its literals. -/
def dropBraces (line : Text) : Text :=
  ((Quoting.outside.annotate line).filter fun marked => !isBareBrace marked).map Prod.fst

/-- Number of opening braces outside the literals of a line. -/
def openBraces (line : Text) : Nat :=
  (Quoting.outside.annotate line).countP fun (char, quoting) =>
    quoting = .outside && char = '{'

/-- Whether a line without its braces goes on with a branch at the level of its header. -/
def continuesBranch (body : Text) : Bool :=
  "elif ".toList.isPrefixOf body || "else:".toList.isPrefixOf body

/-- What a line means for the layout. -/
inductive LineShape where
  /-- Nothing but blanks. -/
  | blank
  /-- A closing brace and what follows it. -/
  | closing (snippet : Text)
  /-- Nothing but opening braces. -/
  | braces (opened : Nat)
  /-- The next part of a branch. -/
  | branch (body : Text) (opened : Nat)
  /-- A line that ends in a colon. -/
  | header (body : Text) (opened : Nat)
  | statement (body : Text) (opened : Nat)
  deriving Repr, DecidableEq

/-- The shape of a line. -/
def LineShape.ofLine (line : Text) : LineShape :=
  let trimmed := trim line
  if trimmed = [] then
    blank
  else if trimmed.head? = some '}' then
    closing trimmed
  else
    let body := trim (dropBraces trimmed)
    let opened := openBraces trimmed
    if body = [] then braces opened
    else if continuesBranch body then branch body opened
    else if body.getLast? = some ':' then header body opened
    else statement body opened

/-- The blocks and loose braces that are open. -/
structure Margin where
  /-- Number of open blocks. -/
  depth : Nat := 0
  /-- Number of loose braces that no closing brace has answered. -/
  loose : Nat := 0
  deriving Repr, DecidableEq

/-- A text at some depth. -/
def indented (depth : Nat) (body : Text) : Text :=
  (List.replicate depth levelIndent.toList).flatten ++ body

namespace Margin

/-- What is open behind a line. -/
def next (margin : Margin) : LineShape → Margin
  | .blank => margin
  | .closing _ =>
      if 0 < margin.depth then { margin with depth := margin.depth - 1 }
      else { margin with loose := margin.loose - 1 }
  | .braces opened => { margin with loose := margin.loose + opened }
  | .branch _ opened =>
      { depth := margin.depth - 1 + 1, loose := margin.loose + (opened - 1) }
  | .header _ opened =>
      { depth := margin.depth + 1, loose := margin.loose + (opened - 1) }
  | .statement _ opened => { margin with loose := margin.loose + opened }

/-- The line that is set for a line, if there is one. -/
def set? (margin : Margin) : LineShape → Option Text
  | .blank | .braces _ => some []
  | .closing _ => none
  | .branch body _ => some (indented (margin.depth - 1) body)
  | .header body _ | .statement body _ => some (indented margin.depth body)

/-- The snippet of a line that closes a block although nothing is open. -/
def stray? (margin : Margin) : LineShape → Option Text
  | .closing snippet => if margin.depth = 0 ∧ margin.loose = 0 then some snippet else none
  | _ => none

end Margin

/-- The lines set for a list of lines, and the remarks on them. -/
structure Layout where
  lines : List Text := []
  remarks : List Remark := []
  deriving Repr, DecidableEq

namespace Layout

/-- Set the lines from a line number on. -/
def ofLinesFrom : (margin : Margin) → (line : Nat) → List Text → Layout
  | _, _, [] => {}
  | margin, line, text :: rest =>
      let shape := LineShape.ofLine text
      let tail := ofLinesFrom (margin.next shape) (line + 1) rest
      { lines := (margin.set? shape).toList ++ tail.lines
        remarks := ((margin.stray? shape).map fun snippet =>
          { origin := Pass.layout.name, line, reason := .strayClose, snippet }).toList ++
            tail.remarks }

/-- Set a list of lines. -/
def ofLines (texts : List Text) : Layout :=
  ofLinesFrom {} 1 texts

end Layout

/-- Put indentation in the place of braces. -/
def convertLayout (text : Text) : Draft :=
  let layout := Layout.ofLines (lines text)
  { text := unlines layout.lines, remarks := layout.remarks }

end Offside
