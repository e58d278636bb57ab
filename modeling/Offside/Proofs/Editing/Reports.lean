import Offside.Proofs.Editing.Division
import Offside.Proofs.Layout.Balance
import Offside.Proofs.Loop.Clauses
import Offside.Proofs.Printing

/-!
# Remarks and what they are about

The passes over loops and over print calls remark on constructs, and the layout remarks on lines.
All of them name the line on which the thing stands in the text that the pass was given, and quote
it as it stands there. The remarks of a pass are in the order of the text.
-/

namespace Offside

variable {α : Type}

/-! ## Constructs -/

/-- A pass replaces the constructs of a recogniser in a text, and remarks on some of them. -/
structure Recognizer.Reports (recognizer : Recognizer α) (text : Text) (origin : String)
    (place : Text → α → Text) (reason? : α → Option Reason) (draft : Draft)
    (division : Division α) : Prop where
  source : division.source = text
  /-- The constructs are those that a search from left to right finds. -/
  scans : recognizer.Scans none text division.occurrences
  written : draft.text = division.weave place
  remarks : draft.remarks = division.occurrences.filterMap fun occurrence =>
    (reason? occurrence.value).map (occurrence.remark origin)
  /-- The line of a construct is that of its first byte. -/
  lines : ∀ occurrence ∈ division.occurrences,
    lineAt? text occurrence.start = some occurrence.line

theorem Recognizer.Proper.reports {recognizer : Recognizer α} (proper : recognizer.Proper)
    (origin : String) (judge : α → Verdict) (text : Text) :
    recognizer.Reports text origin (fun matched value => (judge value).outcome matched)
      (fun value => (judge value).reason?)
      (recognizer.edit origin (fun _ _ value => judge value) text) (recognizer.division text) := by
  obtain ⟨written, remarks⟩ := recognizer.edit_division origin text judge
  have scans := proper.scans text
  refine ⟨recognizer.source_division text, scans, written, remarks, ?_⟩
  intro occurrence member
  rw [← scans.placed occurrence member]
  exact occurrence.lineAt?_start

/-- What stands in the place of the header of a counted loop: its range, or the header itself if it
has none. -/
def LoopClauses.outcome (matched : Text) (clauses : LoopClauses) : Text :=
  match clauses.range with
  | .ok header => header.render
  | .error _ => matched

/-- Why the header of a counted loop has no range, if it has none. -/
def LoopClauses.refusal? (clauses : LoopClauses) : Option Reason :=
  match clauses.range with
  | .ok _ => none
  | .error reason => some reason

/-- Why there is a doubt about the arguments of a print call, if there is one. -/
def PrintStatement.doubt? (statement : PrintStatement) : Option Reason :=
  if plusIsDoubtful statement.arguments then some (.doubtfulPlus (trim statement.arguments))
  else none

theorem LoopClauses.outcome_verdict (matched : Text) (clauses : LoopClauses) :
    clauses.verdict.outcome matched = clauses.outcome matched := by
  unfold verdict outcome
  cases clauses.range <;> rfl

theorem LoopClauses.reason?_verdict (clauses : LoopClauses) :
    clauses.verdict.reason? = clauses.refusal? := by
  unfold verdict refusal?
  cases clauses.range <;> rfl

theorem PrintStatement.outcome_verdict (matched : Text) (statement : PrintStatement) :
    statement.verdict.outcome matched = statement.render := by
  unfold verdict
  split <;> rfl

theorem PrintStatement.reason?_verdict (statement : PrintStatement) :
    statement.verdict.reason? = statement.doubt? := by
  unfold verdict doubt?
  split <;> rfl

theorem convertLoops_reports (text : Text) :
    countedLoop.Reports text "loops" LoopClauses.outcome LoopClauses.refusal? (convertLoops text)
      (countedLoop.division text) := by
  have proper := countedLoop_opensWith.proper (by decide)
  have reports := proper.reports "loops" LoopClauses.verdict text
  simp only [LoopClauses.outcome_verdict, LoopClauses.reason?_verdict] at reports
  exact reports

theorem convertPrints_reports (text : Text) :
    printStatement.Reports text "print" (fun _ => PrintStatement.render) PrintStatement.doubt?
      (convertPrints text) (printStatement.division text) := by
  have proper := printStatement_opensWith.proper (by decide)
  have reports := proper.reports "print" PrintStatement.verdict text
  simp only [PrintStatement.outcome_verdict, PrintStatement.reason?_verdict] at reports
  exact reports

/-! ## Lines -/

namespace Layout

/-- A remark of the layout is about a line that closes a block. -/
theorem exists_of_mem_remarks {margin : Margin} {line : Nat} {texts : List Text} {remark : Remark}
    (member : remark ∈ (ofLinesFrom margin line texts).remarks) :
    ∃ index text, texts[index]? = some text ∧ closesBlock text = true ∧
      remark = strayRemark (line + index) text := by
  induction texts generalizing margin line with
  | nil => cases member
  | cons text rest ih =>
      rcases List.mem_append.1 member with here | later
      · cases closes : closesBlock text with
        | false =>
            rw [margin.stray?_of_stays closes] at here
            cases here
        | true =>
            rw [margin.stray?_of_closes closes] at here
            split at here
            · rw [Option.map_some, Option.toList_some, List.mem_singleton] at here
              exact ⟨0, text, rfl, closes, here⟩
            · cases here
      · obtain ⟨index, other, found, closes, rfl⟩ := ih later
        exact ⟨index + 1, other, found, closes, by rw [Nat.add_assoc, Nat.add_comm 1]⟩

theorem pairwise_remarks (margin : Margin) (line : Nat) (texts : List Text) :
    (ofLinesFrom margin line texts).remarks.Pairwise fun one other => one.line < other.line := by
  induction texts generalizing margin line with
  | nil => exact .nil
  | cons text rest ih =>
      rw [ofLinesFrom, List.pairwise_append]
      refine ⟨?_, ih _ _, ?_⟩
      · cases margin.stray? (.ofLine text) <;> simp
      · intro one here other later
        rw [Option.mem_toList, Option.map_eq_some_iff] at here
        obtain ⟨_, _, rfl⟩ := here
        obtain ⟨index, _, _, _, rfl⟩ := exists_of_mem_remarks later
        simp only [strayRemark]
        omega

end Layout

/-- Every remark on a loop, on a print call or on a line names the line on which the thing starts
and quotes it, and the remarks of a pass are in the order of the text. There is one for each header
of a counted loop that has no range, which is kept as it stands, one for each print call with a
doubtful sign, which is replaced like all others, and none on a line that closes no block. -/
theorem passes_report (text : Text) :
    (∃ division, countedLoop.Reports text "loops" LoopClauses.outcome LoopClauses.refusal?
      (convertLoops text) division) ∧
    (∃ division, printStatement.Reports text "print" (fun _ => PrintStatement.render)
      PrintStatement.doubt? (convertPrints text) division) ∧
    (∀ remark ∈ (convertLayout text).remarks, ∃ index line,
      (lines text)[index]? = some line ∧ remark.line = index + 1 ∧
        remark.snippet = trim line ∧ remark.snippet.head? = some '\x7d' ∧
        remark.origin = "indent" ∧ remark.reason = .strayClose) ∧
    (convertLayout text).remarks.Pairwise fun one other => one.line < other.line := by
  refine ⟨⟨_, convertLoops_reports text⟩, ⟨_, convertPrints_reports text⟩, ?_,
    Layout.pairwise_remarks {} 1 (lines text)⟩
  intro remark member
  obtain ⟨index, line, found, closes, rfl⟩ := Layout.exists_of_mem_remarks member
  exact ⟨index, line, found, Nat.add_comm 1 index, rfl, of_decide_eq_true closes, rfl, rfl⟩

end Offside
