import Offside.Remark

/-!
# The log of a run

What happens during a run is recorded as data, in the order in which it happens. An event
carries the values it is about; level, title and labelled fields are derived from it.
-/

namespace Offside

/-- Something that happens during a run. -/
inductive Event where
  /-- A pass begins. -/
  | passBegun (name : String)
  /-- A construct was replaced. -/
  | replaced (origin : String) (before after : Text)
  /-- A construct was kept as it stands. -/
  | kept (origin : String) (line : Nat) (reason : Reason)
  /-- A variable gets another name. -/
  | renamed (before after : Text)
  /-- A pass ended with so many remarks. -/
  | remarked (count : Nat)
  /-- A pass changed a text of so many bytes. -/
  | textChanged (before after : Nat)
  /-- The result was refused for so many remarks. -/
  | refused (count : Nat)
  deriving Repr, DecidableEq

/-- How important an event is. -/
inductive Level where
  | trace
  | debug
  | warn
  deriving Repr, DecidableEq

/-- The name of a level. -/
def Level.name : Level → String
  | trace => "TRACE"
  | debug => "DEBUG"
  | warn => "WARN"

/-- A value in the description of an event. -/
inductive Field where
  | words (value : String)
  | number (value : Nat)
  deriving Repr, DecidableEq

namespace Event

/-- A span stands for all that follows it up to the next span. -/
def isSpan : Event → Bool
  | passBegun _ => true
  | _ => false

/-- How important an event is. -/
def level : Event → Level
  | replaced .. | kept .. => .trace
  | passBegun _ | renamed .. | remarked _ | textChanged .. => .debug
  | refused _ => .warn

/-- What kind of thing happened. -/
def title : Event → String
  | passBegun _ => "stage"
  | replaced .. => "rewrote"
  | kept .. => "left verbatim"
  | renamed .. => "renaming built-in collision"
  | remarked _ => "constructs left verbatim"
  | textChanged .. => "stage changed text"
  | refused _ => "strict mode rejected a partial conversion"

/-- The values of an event, each with its label. -/
def fields : Event → List (String × Field)
  | passBegun name => [("name", .words name)]
  | replaced origin before after =>
      [("stage", .words origin), ("from", .words (.ofList before)), ("to", .words (.ofList after))]
  | kept origin line reason =>
      [("stage", .words origin), ("line", .number line), ("reason", .words reason.message)]
  | renamed before after => [("from", .words (.ofList before)), ("to", .words (.ofList after))]
  | remarked count => [("count", .number count)]
  | textChanged before after => [("before", .number before), ("after", .number after)]
  | refused count => [("count", .number count)]

end Event

end Offside
