import Offside.CommandLine.Outcome
import Offside.Proofs.Sequence
import Offside.Proofs.Text.Spans

/-!
# The ways to a conversion

A snippet can be converted from within a program or from the command line, for a lenient or a
strict user, and it can be checked without being converted. All these ways lead through the same
run: they show its text and its remarks, and they differ in what they make of a remark.
-/

namespace Offside

theorem Run.map_fst_snapshots (passes : List Pass) (text : Text) :
    (Run.ofPasses passes text).snapshots.map Prod.fst = passes := by
  induction passes generalizing text with
  | nil => rfl
  | cons pass passes ih => rw [snapshots_cons, List.map_cons, ih]

/-- The text behind the last pass is the one that is seen last. -/
theorem Run.getLast?_snapshots (pass : Pass) (passes : List Pass) (text : Text) :
    (Run.ofPasses (pass :: passes) text).snapshots.getLast?.map Prod.snd =
      some (Run.ofPasses (pass :: passes) text).final := by
  induction passes generalizing pass text with
  | nil => rfl
  | cons next passes ih =>
      rw [snapshots_cons, snapshots_cons, List.getLast?_cons_cons, ← snapshots_cons, ih,
        final_cons pass]

namespace CommandLine

theorem decode_toUTF8 (text : String) : decode text.toUTF8 = .ok text := by
  have valid : String.fromUTF8? text.toUTF8 = some text := dif_pos text.isValidUTF8
  rw [decode, valid]

/-- What the program does for some arguments, if they make a request. -/
def answer? (colour : Bool) (read : Source → Except ReadFailure String) (words : List String) :
    Option Outcome :=
  (Request.ofArguments? words).map (Request.outcome colour read)

/-! ## First lines -/

/-- What stands behind the first line of a text. -/
def behindFirstLine (text : String) : String :=
  String.ofList ((text.toList.dropWhile (· ≠ '\n')).drop 1)

theorem behindFirstLine_append {heading : String} (single : '\n' ∉ heading.toList)
    (rest : String) : behindFirstLine (heading ++ "\n" ++ rest) = rest := by
  have cut : (heading.toList ++ '\n' :: rest.toList).dropWhile (· ≠ '\n') =
      '\n' :: rest.toList := by
    apply dropWhile_append_of_stop
    · intro char member
      have other : char ≠ '\n' := by
        rintro rfl
        exact single member
      exact decide_eq_true other
    · intro char first
      cases first
      rfl
  have newline : "\n".toList ++ rest.toList = '\n' :: rest.toList := rfl
  rw [behindFirstLine, String.toList_append, String.toList_append, List.append_assoc, newline, cut]
  exact String.ofList_toList

theorem newline_notMem_toString (value : Nat) : '\n' ∉ (toString value).toList := by
  intro member
  have digit := Nat.isDigit_of_mem_toDigits (by decide) (by decide)
    (Nat.toList_repr (n := value) ▸ member)
  cases digit

/-- The first line of the errors of a lenient conversion with remarks. -/
def warningLine (colour : Bool) (count : Nat) : String :=
  paint colour .boldYellow "Warning:" ++ " " ++ toString count ++ " construct(s) left verbatim"

/-- The first line of the errors of a refused conversion. -/
def refusalLine (colour : Bool) (count : Nat) : String :=
  errorWord colour ++ ("conversion incomplete: " ++ toString count ++
    " construct(s) left verbatim")

theorem newline_notMem_warningLine (colour : Bool) (count : Nat) :
    '\n' ∉ (warningLine colour count).toList := by
  have word : '\n' ∉ (paint colour .boldYellow "Warning:").toList := by
    cases colour <;> decide +kernel
  have number := newline_notMem_toString count
  simp only [warningLine, String.toList_append, List.mem_append, not_or]
  exact ⟨⟨⟨word, by decide⟩, number⟩, by decide⟩

theorem newline_notMem_refusalLine (colour : Bool) (count : Nat) :
    '\n' ∉ (refusalLine colour count).toList := by
  have word : '\n' ∉ (errorWord colour).toList := by
    cases colour <;> decide +kernel
  have number := newline_notMem_toString count
  simp only [refusalLine, String.toList_append, List.mem_append, not_or]
  exact ⟨word, ⟨by decide, number⟩, by decide⟩

/-! ## Listings -/

/-- A text lists remarks in their order, each with its pass, its line and its reason, and below them
the construct. -/
inductive Lists (colour : Bool) : List Remark → String → Prop where
  | nil : Lists colour [] ""
  | cons {remark : Remark} {remarks : List Remark} {rest : String}
      (tail : Lists colour remarks rest) :
      Lists colour (remark :: remarks)
        ("  " ++ paint colour .yellow ("[" ++ remark.origin ++ "]") ++ " line " ++
          toString remark.line ++ ": " ++ remark.reason.message ++ "\n" ++
          "      " ++ paint colour .dimmed (String.ofList (trim remark.snippet)) ++ "\n" ++ rest)

theorem lists_listing (colour : Bool) (remarks : List Remark) :
    Lists colour remarks (listing colour remarks) := by
  induction remarks with
  | nil => exact .nil
  | cons remark remarks ih =>
      rw [listing, List.map_cons, String.join_cons]
      exact .cons ih

/-! ## What each command shows -/

section Commands

variable (colour : Bool) {snippet : Text} {rendition : Rendition}
variable (rendered : Rendition.ofSnippet snippet = rendition)
include rendered

theorem convert_of_clean (strict : Bool) (clean : rendition.remarks = []) :
    convert colour strict snippet = { output := String.ofList rendition.text ++ "\n" } := by
  rw [convert, convertWith, rendered, Rendition.demand_eq, if_neg fun both => both.2 clean]
  simp [Rendition.isClean, clean]

theorem convert_lenient (doubted : rendition.remarks ≠ []) :
    convert colour false snippet =
      { output := String.ofList rendition.text ++ "\n"
        errors := warningLine colour rendition.remarks.length ++ "\n" ++
          listing colour rendition.remarks } := by
  have ending : " construct(s) left verbatim\n" = " construct(s) left verbatim" ++ "\n" := by
    decide
  rw [convert, convertWith, rendered, Rendition.demand_eq, if_neg fun both => nomatch both.1]
  simp [Rendition.isClean, doubted, warningLine, ending, String.append_assoc]

theorem convert_strict (doubted : rendition.remarks ≠ []) :
    convert colour true snippet =
      { exitCode := 1
        errors := refusalLine colour rendition.remarks.length ++ "\n" ++
          listing colour rendition.remarks } := by
  rw [convert, convertWith, rendered, Rendition.demand_eq, if_pos ⟨rfl, doubted⟩]
  rfl

theorem check_of_clean (clean : rendition.remarks = []) : (check colour snippet).exitCode = 0 := by
  simp [check, rendered, clean]

theorem check_of_doubted (doubted : rendition.remarks ≠ []) :
    (check colour snippet).exitCode = 1 ∧
      (check colour snippet).errors = listing colour rendition.remarks := by
  simp [check, rendered, doubted]

end Commands

/-! ## Agreement -/

/-- The ways to convert a snippet agree with a run over it: those from within a program, and the
outcomes of a lenient conversion, a strict one and a check. -/
structure Agree (colour : Bool) (snippet : String) (run : Run) (lenient strict check : Outcome) :
    Prop where
  bare : toPython snippet = String.ofList run.rendition.text
  tolerated : convertWith false snippet.toList = .ok run.rendition
  accepted : run.remarks = [] → convertWith true snippet.toList = .ok run.rendition
  refused : run.remarks ≠ [] → convertWith true snippet.toList = .error ⟨run.rendition⟩
  /-- A transcript tells the run. -/
  told : Transcript.ofSnippet snippet.toList =
    { snippet := snippet.toList, steps := run.snapshots, output := run.rendition.text,
      remarks := run.remarks }
  /-- Every pass is seen, and behind the last one the text that is converted. -/
  observed : run.snapshots.map Prod.fst = Pass.sequence ∧
    run.snapshots.getLast?.map (trim ∘ Prod.snd) = some run.rendition.text
  lenientCode : lenient.exitCode = 0
  lenientOutput : lenient.output = String.ofList run.rendition.text ++ "\n"
  strictCode : strict.exitCode = 0 ↔ run.remarks = []
  checkCode : check.exitCode = 0 ↔ run.remarks = []
  /-- Without remarks a strict conversion shows the same as a lenient one. -/
  clean : run.remarks = [] → strict.output = lenient.output ∧ strict.errors = lenient.errors
  /-- With remarks a strict conversion shows no output. -/
  silent : run.remarks ≠ [] → strict.output = ""
  /-- A check lists the remarks of the run, and behind a first line both conversions list them in
  the same way. -/
  listed : run.remarks ≠ [] → Lists colour run.remarks check.errors ∧
    behindFirstLine lenient.errors = check.errors ∧ behindFirstLine strict.errors = check.errors

/-- Every pass of a whole run is seen, and the text behind the last one is the final text. -/
theorem observed_ofPasses (text : Text) :
    (Run.ofPasses Pass.sequence text).snapshots.map Prod.fst = Pass.sequence ∧
      (Run.ofPasses Pass.sequence text).snapshots.getLast?.map (trim ∘ Prod.snd) =
        some (Run.ofPasses Pass.sequence text).rendition.text := by
  refine ⟨Run.map_fst_snapshots _ _, ?_⟩
  rw [← Option.map_map, Pass.sequence, Run.getLast?_snapshots]
  simp only [Option.map_some, Run.rendition]

theorem agree_outcomes (colour : Bool) {snippet : String} {run : Run}
    (ran : Run.ofPasses Pass.sequence snippet.toList = run) :
    Agree colour snippet run (convert colour false snippet.toList)
      (convert colour true snippet.toList) (check colour snippet.toList) := by
  have rendered : Rendition.ofSnippet snippet.toList = run.rendition := by
    rw [Rendition.ofSnippet, ran]
  have bare : toPython snippet = String.ofList run.rendition.text := by
    rw [toPython, rendered]
  have demanded : ∀ strict, convertWith strict snippet.toList = run.rendition.demand strict := by
    intro strict
    rw [convertWith, rendered]
  have tolerated : convertWith false snippet.toList = .ok run.rendition := demanded false
  have told : Transcript.ofSnippet snippet.toList =
      { snippet := snippet.toList, steps := run.snapshots, output := run.rendition.text,
        remarks := run.remarks } := by
    rw [Transcript.ofSnippet, ran]
  have observed := ran ▸ observed_ofPasses snippet.toList
  by_cases clean : run.remarks = []
  · have accepted : convertWith true snippet.toList = .ok run.rendition := by
      rw [demanded, Rendition.demand_eq, if_neg fun both => both.2 clean]
    have lenient := convert_of_clean colour rendered false clean
    have strict := convert_of_clean colour rendered true clean
    have code := check_of_clean colour rendered clean
    exact {
      bare, tolerated, told, observed
      accepted := fun _ => accepted
      refused := fun doubted => absurd clean doubted
      lenientCode := by rw [lenient]
      lenientOutput := by rw [lenient]
      strictCode := by rw [strict]; exact iff_of_true rfl clean
      checkCode := iff_of_true code clean
      clean := fun _ => by rw [strict, lenient]; exact ⟨rfl, rfl⟩
      silent := fun doubted => absurd clean doubted
      listed := fun doubted => absurd clean doubted }
  · have refused : convertWith true snippet.toList = .error ⟨run.rendition⟩ := by
      rw [demanded, Rendition.demand_eq, if_pos ⟨rfl, clean⟩]
    have lenient := convert_lenient colour rendered clean
    have strict := convert_strict colour rendered clean
    obtain ⟨code, errors⟩ := check_of_doubted colour rendered clean
    exact {
      bare, tolerated, told, observed
      accepted := fun empty => absurd empty clean
      refused := fun _ => refused
      lenientCode := by rw [lenient]
      lenientOutput := by rw [lenient]
      strictCode := by rw [strict]; exact iff_of_false Nat.one_ne_zero clean
      checkCode := by rw [code]; exact iff_of_false Nat.one_ne_zero clean
      clean := fun empty => absurd empty clean
      silent := fun _ => by rw [strict]
      listed := fun _ => by
        rw [lenient, strict, errors]
        exact ⟨lists_listing colour run.remarks,
          behindFirstLine_append (newline_notMem_warningLine colour _) _,
          behindFirstLine_append (newline_notMem_refusalLine colour _) _⟩ }

/-- Whatever arguments ask for a lenient conversion, a strict one and a check of one source, the
answers agree with each other and with the run over what is read from the source. -/
theorem agree_answers {read : Source → Except ReadFailure String} {source : Source}
    {snippet : String} (isRead : read source = decode snippet.toUTF8)
    {lenientWords strictWords checkWords : List String}
    (asksLenient : Request.ofArguments? lenientWords = some (.run (.convert source false false)))
    (asksStrict : Request.ofArguments? strictWords = some (.run (.convert source true false)))
    (asksCheck : Request.ofArguments? checkWords = some (.run (.check source))) (colour : Bool) :
    ∃ lenient strict check, answer? colour read lenientWords = some lenient ∧
      answer? colour read strictWords = some strict ∧
      answer? colour read checkWords = some check ∧
      Agree colour snippet (Run.ofPasses Pass.sequence snippet.toList) lenient strict check := by
  rw [decode_toUTF8] at isRead
  refine ⟨_, _, _, ?_, ?_, ?_, agree_outcomes colour rfl⟩
  · simp only [answer?, asksLenient, Option.map_some, Request.outcome, Command.outcome, isRead,
      Bool.false_eq_true, if_false]
  · simp only [answer?, asksStrict, Option.map_some, Request.outcome, Command.outcome, isRead,
      Bool.false_eq_true, if_false]
  · simp only [answer?, asksCheck, Option.map_some, Request.outcome, Command.outcome, isRead]

/-- A sum in brackets is doubted, so the answers about it are a warning, a refusal and an issue. -/
theorem agree_answers_bracketed_sum :
    (Run.ofPasses Pass.sequence "System.out.println(\"n\" + (a + b));".toList).remarks ≠ [] ∧
      ∃ lenient strict check,
        answer? true (fun _ => decode "System.out.println(\"n\" + (a + b));".toUTF8)
          ["convert", "Main.java"] = some lenient ∧
        answer? true (fun _ => decode "System.out.println(\"n\" + (a + b));".toUTF8)
          ["convert", "-s", "--", "Main.java"] = some strict ∧
        answer? true (fun _ => decode "System.out.println(\"n\" + (a + b));".toUTF8)
          ["check", "Main.java"] = some check ∧
        Agree true "System.out.println(\"n\" + (a + b));"
          (Run.ofPasses Pass.sequence "System.out.println(\"n\" + (a + b));".toList)
          lenient strict check := by
  have asksLenient : Request.ofArguments? ["convert", "Main.java"] =
      some (.run (.convert (.file "Main.java") false false)) := by decide +kernel
  have asksStrict : Request.ofArguments? ["convert", "-s", "--", "Main.java"] =
      some (.run (.convert (.file "Main.java") true false)) := by decide +kernel
  have asksCheck : Request.ofArguments? ["check", "Main.java"] =
      some (.run (.check (.file "Main.java"))) := by decide +kernel
  exact ⟨by decide +kernel, agree_answers rfl asksLenient asksStrict asksCheck true⟩

end CommandLine

end Offside
