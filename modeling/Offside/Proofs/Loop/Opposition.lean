import Offside.Proofs.Loop.Header

/-!
# Steps against the comparison

A step may lead away from the bound. A downward comparison turns such a step around, but an upward
one keeps it, so that in both cases the range counts down from the start. A loop that never runs
starts at its bound or beyond it. Beyond a downward bound there is nothing to count down to. Beyond
an upward bound there is, so that the range lists values that the loop never takes.
-/

namespace Offside

namespace Comparison

/-- A step leads away from the bound. -/
def Opposes (step : Int) : Comparison → Prop
  | below | atMost => step < 0
  | above | atLeast => 0 < step

/-- Whether the values go up towards the bound. -/
def isUpward : Comparison → Bool
  | below | atMost => true
  | above | atLeast => false

variable {step : Int} {comparison : Comparison}

theorem Opposes.ne_zero (opposes : comparison.Opposes step) : step ≠ 0 := by
  cases comparison <;> simp only [Opposes] at opposes <;> omega

/-- A range with a step away from the bound counts down. -/
theorem Opposes.direct_neg (opposes : comparison.Opposes step) : comparison.direct step < 0 := by
  cases comparison with
  | below | atMost => exact opposes
  | above | atLeast =>
      simp only [Opposes] at opposes
      rw [direct, if_pos opposes]
      omega

/-- Counting down from where a loop never runs. -/
theorem le_stopValue_iff {start bound : Int} (idle : ¬comparison.Holds start bound) :
    start ≤ comparison.stopValue bound ↔
      comparison.isUpward = false ∨ start = comparison.stopValue bound := by
  cases comparison with
  | below | atMost =>
      simp only [Holds, stopValue, isUpward, Bool.true_eq_false, false_or] at idle ⊢
      omega
  | above | atLeast =>
      simp only [Holds, stopValue, isUpward, true_or, iff_true] at idle ⊢
      omega

end Comparison

/-- A range that counts down is empty exactly if it starts at its end or below. -/
theorem rangeValues_eq_nil_iff (start stop : Int) {step : Int} (downward : step < 0) :
    rangeValues start stop step = [] ↔ start ≤ stop := by
  have visits := visits_rangeValues_down start stop downward
  constructor
  · intro empty
    rw [empty] at visits
    cases visits with
    | stop stops => exact Int.not_lt.1 stops
  · intro le
    exact visits.unique (.stop (Int.not_lt.2 le))

namespace CountedHeader

/-- A loop that never runs, with a step away from its bound, becomes a loop over a range that counts
down from its start, without a remark. The range is empty exactly if the comparison is a downward
one or the loop starts where the range ends. -/
theorem convertLoops_idle (header : CountedHeader) {text : Text}
    (spaced : Spaced header.tokens text) (fits : header.update.StepFits)
    (opposes : header.comparison.Opposes header.update.step)
    (idle : ¬header.comparison.Holds header.start.value header.bound.value) :
    let loop := header.directed.rangeLoop
    let stop := header.comparison.stopValue header.bound.value
    (∃ clauses, countedLoop.at? none text = some (clauses, []) ∧
        clauses.verdict = .replace loop.header) ∧
      (convertLoops text).text = loop.header ∧ (convertLoops text).remarks = [] ∧
      ∃ values, loop.values? = some values ∧
        Visits (stop < ·) (header.comparison.direct header.update.step) header.start.value values ∧
        (values = [] ↔ header.comparison.isUpward = false ∨ header.start.value = stop) := by
  intro loop stop
  have moves := opposes.ne_zero
  obtain ⟨converted, silent⟩ := header.convertLoops_directed spaced fits moves
  have downward := opposes.direct_neg
  have directedMoves : header.directed.update.step ≠ 0 := by
    rw [header.step_directed]
    omega
  have listed : loop.values? = some (rangeValues header.start.value stop
      (header.comparison.direct header.update.step)) := by
    have values := header.directed.values?_rangeLoop directedMoves
    rwa [header.step_directed] at values
  refine ⟨header.exists_verdict_directed spaced fits moves, converted, silent, _, listed,
    visits_rangeValues_down _ _ downward, ?_⟩
  rw [rangeValues_eq_nil_iff _ _ downward, Comparison.le_stopValue_iff idle]

/-- A header `for (v = start; v comparison bound; v += amount)`. -/
def adding (start : Int) (comparison : Comparison) (bound amount : Int) : CountedHeader where
  type? := none
  counter := ⟨['v'], by decide, fun _ first => by cases first; rfl, by decide⟩
  start := .ofInt start
  comparison := comparison
  bound := .ofInt bound
  update := .add (.ofInt amount)
  known := by decide

/-- The step is the least word, which has no opposite among the words. -/
theorem convertLoops_idle_leastWord :
    let header := adding 1 .below 1 Decimal.wordMin
    let text := "for (v = 1; v < 1; v += -9223372036854775808)".toList
    Spaced header.tokens text ∧ header.update.StepFits ∧
      header.comparison.Opposes header.update.step ∧
      ¬header.comparison.Holds header.start.value header.bound.value ∧
      (convertLoops text).text = "for v in range(1, 1, -9223372036854775808):".toList ∧
      header.directed.rangeLoop.values? = some [] := by
  intro header text
  have spaced : Spaced header.tokens text :=
    .cons _ [' '] (by decide) (by decide) <| .cons _ [] (by decide) (by decide) <|
    .cons _ [' '] (by decide) (by decide) <| .cons _ [' '] (by decide) (by decide) <|
    .cons _ [] (by decide) (by decide) <| .cons _ [' '] (by decide) (by decide) <|
    .cons _ [' '] (by decide) (by decide) <| .cons _ [' '] (by decide) (by decide) <|
    .cons _ [] (by decide) (by decide) <| .cons _ [' '] (by decide) (by decide) <|
    .cons _ [' '] (by decide) (by decide) <| .cons _ [' '] (by decide) (by decide) <|
    .cons _ [] (by decide) (by decide) <| .single _
  have fits : header.update.StepFits := by
    show Decimal.fitsWord (Literal.ofInt Decimal.wordMin).value = true
    decide
  have opposes : header.comparison.Opposes header.update.step := by
    show (Literal.ofInt Decimal.wordMin).value < 0
    decide
  have idle : ¬header.comparison.Holds header.start.value header.bound.value := by
    show ¬(Literal.ofInt 1).value < (Literal.ofInt 1).value
    decide
  obtain ⟨_, converted, _, values, listed, _, empty⟩ :=
    header.convertLoops_idle spaced fits opposes idle
  rw [empty.2 (.inr rfl)] at listed
  exact ⟨spaced, fits, opposes, idle, converted, listed⟩

/-- The loop never runs, and the range lists the start. -/
theorem convertLoops_idle_upward :
    let header := adding 5 .below 3 (-2)
    ¬header.comparison.Holds header.start.value header.bound.value ∧
      header.comparison.Opposes header.update.step ∧
      (LoopClauses.mk ['v'] "5".toList "v < 3".toList "v += -2".toList).verdict =
        .replace "for v in range(5, 3, -2):".toList ∧
      header.directed.rangeLoop.header = "for v in range(5, 3, -2):".toList ∧
      header.directed.rangeLoop.values? = some [5] := by
  refine ⟨?_, ?_, by decide, by decide, by decide⟩
  · show ¬(Literal.ofInt 5).value < (Literal.ofInt 3).value
    decide
  · show (Literal.ofInt (-2)).value < 0
    decide

end CountedHeader

end Offside
