import Offside.Rendition

/-!
# The passes in sequence

The rendition of a snippet in terms of the passes: its text is what the last pass leaves, and
its remarks are those of all passes in order.
-/

namespace Offside

namespace Run

@[simp] theorem final_nil (text : Text) : (Run.ofPasses [] text).final = text := rfl

@[simp] theorem remarks_nil (text : Text) : (Run.ofPasses [] text).remarks = [] := rfl

@[simp] theorem snapshots_nil (text : Text) : (Run.ofPasses [] text).snapshots = [] := rfl

@[simp] theorem events_nil (text : Text) : (Run.ofPasses [] text).events = [] := rfl

theorem final_cons (pass : Pass) (passes : List Pass) (text : Text) :
    (Run.ofPasses (pass :: passes) text).final =
      (Run.ofPasses passes (pass.apply text).text).final := rfl

theorem remarks_cons (pass : Pass) (passes : List Pass) (text : Text) :
    (Run.ofPasses (pass :: passes) text).remarks =
      (pass.apply text).remarks ++ (Run.ofPasses passes (pass.apply text).text).remarks := rfl

theorem snapshots_cons (pass : Pass) (passes : List Pass) (text : Text) :
    (Run.ofPasses (pass :: passes) text).snapshots =
      (pass, (pass.apply text).text) ::
        (Run.ofPasses passes (pass.apply text).text).snapshots := rfl

theorem events_cons (pass : Pass) (passes : List Pass) (text : Text) :
    (Run.ofPasses (pass :: passes) text).events =
      pass.log text (pass.apply text) ++
        (Run.ofPasses passes (pass.apply text).text).events := rfl

end Run

/-- A snippet with its reads and loops converted. -/
def looped (snippet : Text) : Text :=
  (convertLoops (convertReads snippet).text).text

/-- A snippet in front of the layout pass. -/
def respelled (snippet : Text) : Text :=
  convertSpelling (convertPrints (convertBranches (looped snippet))).text

namespace Rendition

theorem text_ofSnippet (snippet : Text) :
    (ofSnippet snippet).text =
      trim (convertNames (convertLayout (respelled snippet)).text).text := by
  simp only [ofSnippet, Run.rendition, Pass.sequence, Run.final_cons, Run.final_nil, Pass.apply,
    respelled, looped]

theorem remarks_ofSnippet (snippet : Text) :
    (ofSnippet snippet).remarks =
      (convertReads snippet).remarks ++ (convertLoops (convertReads snippet).text).remarks ++
        (convertPrints (convertBranches (looped snippet))).remarks ++
        (convertLayout (respelled snippet)).remarks := by
  simp only [ofSnippet, Run.rendition, Pass.sequence, Run.remarks_cons, Run.remarks_nil,
    Pass.apply, respelled, looped, convertNames, List.nil_append, List.append_nil,
    List.append_assoc]

theorem demand_eq (strict : Bool) (rendition : Rendition) :
    rendition.demand strict =
      if strict = true ∧ rendition.remarks ≠ [] then .error ⟨rendition⟩ else .ok rendition := by
  obtain ⟨text, remarks⟩ := rendition
  cases strict <;> cases remarks <;> rfl

end Rendition

end Offside
