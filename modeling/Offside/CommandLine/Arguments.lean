/-!
# Arguments

What the arguments of the program ask for. Arguments are read from left to right; a switch
can be a word or a letter, letters can be joined, and a double dash makes everything behind it
plain. There is no request when an argument has no place.
-/

namespace Offside.CommandLine

/-- A switch. -/
inductive Switch where
  | strict
  | debug
  | verbose
  | version
  deriving Repr, DecidableEq

namespace Switch

/-- The switch with a given letter. -/
def ofLetter? : Char → Option Switch
  | 's' => some strict
  | 'd' => some debug
  | 'v' => some verbose
  | 'V' => some version
  | _ => none

/-- The switch with a given word. -/
def ofWord? (word : List Char) : Option Switch :=
  if word = "strict".toList then some strict
  else if word = "debug".toList then some debug
  else if word = "verbose".toList then some verbose
  else if word = "version".toList then some version
  else none

end Switch

/-- An argument by its form. -/
inductive Argument where
  /-- Switches in a row; `none` stands for an unknown one. -/
  | switches (row : List (Option Switch))
  /-- The double dash. -/
  | dashes
  | plain (word : String)
  deriving Repr, DecidableEq

/-- The form of an argument. -/
def Argument.ofString (word : String) : Argument :=
  match word.toList with
  | ['-', '-'] => dashes
  | '-' :: '-' :: name => switches [Switch.ofWord? name]
  | '-' :: letter :: letters => switches ((letter :: letters).map Switch.ofLetter?)
  | _ => plain word

/-- Where a snippet comes from. -/
inductive Source where
  | standardInput
  | file (name : String)
  deriving Repr, DecidableEq

/-- The name of a source in messages. -/
def Source.name : Source → String
  | standardInput => "<stdin>"
  | file name => name

/-- What the program is to do. -/
inductive Command where
  | convert (source : Source) (strict debug : Bool)
  | check (source : Source)
  | demo
  deriving Repr, DecidableEq

/-- What the arguments ask for. -/
inductive Request where
  | version
  | run (command : Command)
  deriving Repr, DecidableEq

/-- The commands by name. -/
inductive CommandName where
  | convert
  | check
  | demo
  deriving Repr, DecidableEq

namespace CommandName

/-- The command with a given name. -/
def ofWord? (word : String) : Option CommandName :=
  if word = "convert" then some convert
  else if word = "check" then some check
  else if word = "demo" then some demo
  else none

/-- The switches that may stand behind a command. -/
def switches : CommandName → List Switch
  | convert => [.strict, .debug, .verbose]
  | check | demo => [.verbose]

/-- Whether a file may stand behind a command. -/
def takesFile : CommandName → Bool
  | convert | check => true
  | demo => false

end CommandName

/-- What has been read behind a command. -/
structure Settings where
  given : List Switch := []
  file : Option String := none
  deriving Repr, DecidableEq

namespace Settings

/-- Add switches in a row. Each has to belong to the command and may be given once. -/
def addSwitches (command : CommandName) : Settings → List (Option Switch) → Option Settings
  | settings, [] => some settings
  | _, none :: _ => none
  | settings, some switch :: row =>
      if switch ∈ command.switches ∧ switch ∉ settings.given then
        addSwitches command { settings with given := switch :: settings.given } row
      else
        none

/-- Add a file. There is room for one, and its name must not be empty. -/
def addFile (command : CommandName) (settings : Settings) (name : String) : Option Settings :=
  if command.takesFile ∧ settings.file = none ∧ name ≠ "" then
    some { settings with file := some name }
  else
    none

/-- Add the arguments behind a double dash. -/
def addPlain (command : CommandName) : Settings → List String → Option Settings
  | settings, [] => some settings
  | settings, word :: words => do addPlain command (← settings.addFile command word) words

/-- Add the arguments behind a command. -/
def addArguments (command : CommandName) : Settings → List String → Option Settings
  | settings, [] => some settings
  | settings, word :: words =>
      match Argument.ofString word with
      | .dashes => settings.addPlain command words
      | .switches row => do addArguments command (← settings.addSwitches command row) words
      | .plain name => do addArguments command (← settings.addFile command name) words

/-- The file that was given, or standard input. -/
def source (settings : Settings) : Source :=
  match settings.file with
  | some name => .file name
  | none => .standardInput

/-- The command with what has been read behind it. -/
def command (settings : Settings) : CommandName → Command
  | .convert =>
      .convert settings.source (settings.given.contains .strict) (settings.given.contains .debug)
  | .check => .check settings.source
  | .demo => .demo

end Settings

/-- What switches in a row in front of the command lead to. -/
inductive Prelude where
  | version
  | proceed (verbose : Bool)
  deriving Repr, DecidableEq

/-- Read switches in a row in front of the command. The version is answered at once, and only
`verbose` may precede it, once. -/
def Prelude.ofSwitches : (verbose : Bool) → List (Option Switch) → Option Prelude
  | verbose, [] => some (proceed verbose)
  | _, some .version :: _ => some version
  | false, some .verbose :: row => ofSwitches true row
  | _, _ => none

/-- The request made by the arguments, given whether `verbose` has been read. -/
def Request.ofArgumentsFrom : (verbose : Bool) → List String → Option Request
  | _, [] => none
  | verbose, word :: words =>
      match Argument.ofString word with
      | .dashes => none
      | .switches row =>
          match Prelude.ofSwitches verbose row with
          | none => none
          | some .version => some .version
          | some (.proceed verbose) => ofArgumentsFrom verbose words
      | .plain name => do
          let command ← CommandName.ofWord? name
          let settings ← Settings.addArguments command {} words
          return .run (settings.command command)

/-- The request made by the arguments. -/
def Request.ofArguments? (words : List String) : Option Request :=
  ofArgumentsFrom false words

end Offside.CommandLine
