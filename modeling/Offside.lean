import Offside.CommandLine.Outcome
import Offside.Demo
import Offside.Main
import Offside.Proofs.Layout.Legality
import Offside.Rendition
import Offside.Transcript
import Offside.Proofs.Loop.Clauses
import Offside.Proofs.Loop.Enumeration
import Offside.Proofs.Text.Token
import Offside.Proofs.Loop.Header
import Offside.Proofs.Text.LetterPairs
import Offside.Proofs.Program.Syntax
import Offside.Proofs.Program.Letters
import Offside.Proofs.Program.Stages
import Offside.Proofs.Branch
import Offside.Proofs.Printing
import Offside.Proofs.ReadLines
import Offside.Proofs.Reading
import Offside.Proofs.Program.Passage
import Offside.Proofs.Program.Counting
import Offside.Proofs.Program.Output
import Offside.Proofs.Program.Conversion
import Offside.Proofs.Spelling
import Offside.Proofs.Program.Spelling
import Offside.Proofs.Program.Layout
import Offside.Proofs.Builtins
import Offside.Proofs.Program.Translation
import Offside.Proofs.Layout.Delimiters
import Offside.Proofs.Branching.Conversion
import Offside.Proofs.Indentation.Invariance
import Offside.Proofs.Quiescence
import Offside.Proofs.Log
import Offside.Proofs.FrontEnds
import Offside.Proofs.ClassName.Conversion
import Offside.Proofs.PrintedLiteral.Shedding
import Offside.Proofs.Text.Framing
import Offside.Proofs.PrintedLiteral.Frame
import Offside.Proofs.PrintedLiteral.Passage
import Offside.Proofs.PrintedLiteral.Integrity
import Offside.Proofs.Linewise
import Offside.Proofs.WholeWords
import Offside.Proofs.BoundNames
import Offside.Proofs.ReadAndPrint.Conversion
import Offside.Proofs.ReadAndPrint.Spelling
import Offside.Proofs.Declaration.Commas
import Offside.Proofs.Declaration.Splitting
import Offside.Proofs.Loop.Acceptance
import Offside.Proofs.Layout.Settling
import Offside.Proofs.Layout.Balance
import Offside.Proofs.Layout.Drift
import Offside.Proofs.Loop.Opposition
import Offside.Proofs.Loop.Steps
import Offside.Proofs.Editing.Division
import Offside.Proofs.Editing.Splice
import Offside.Proofs.Editing.Reports
import Offside.Proofs.Editing.Removal
import Offside.Proofs.Editing.Numbering
import Offside.Proofs.Layout.Braces
import Offside.Proofs.Concatenation
