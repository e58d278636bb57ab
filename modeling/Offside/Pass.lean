/-!
# Passes

A snippet is converted by a sequence of passes over its text. This module names them and
fixes their order; what each does stands in the module of its subject.
-/

namespace Offside

/-- A pass over the whole text. -/
inductive Pass where
  /-- Console input. -/
  | reading
  /-- Headers of counted loops. -/
  | loops
  /-- Headers of branches. -/
  | branches
  /-- Console output. -/
  | printing
  /-- Literals, terminators, scaffolding and declarations. -/
  | spelling
  /-- Braces to indentation. -/
  | layout
  /-- Variables that hide a built-in. -/
  | naming
  /-- Closes the sequence and changes nothing. -/
  | closing
  deriving Repr, DecidableEq

namespace Pass

/-- The passes of a full conversion, in order. -/
def sequence : List Pass :=
  [reading, loops, branches, printing, spelling, layout, naming, closing]

/-- The name under which a pass is known to the outside. -/
def name : Pass → String
  | reading => "input"
  | loops => "loops"
  | branches => "conditionals"
  | printing => "print"
  | spelling => "keywords"
  | layout => "indent"
  | naming => "shadowing"
  | closing => "diagnostics"

/-- The pass with a given name. -/
def ofName? (name : String) : Option Pass :=
  sequence.find? fun pass => pass.name = name

@[simp] theorem ofName?_name (pass : Pass) : ofName? pass.name = some pass := by
  cases pass <;> decide

end Pass

end Offside
