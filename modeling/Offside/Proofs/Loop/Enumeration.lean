import Offside.Loop.Range

/-!
# The values that a counted loop runs through

A counted loop is read twice: as the loop that tests its condition, runs its body and moves its
counter, and as the range that lists its values by a number of steps. Both run through the same
values when the step goes in the direction of the comparison.
-/

namespace Offside

/-- The values that the counter of a loop takes in its body, from a value on. The condition is
tested in front of each turn, and the counter is moved behind it. -/
inductive Visits (continues : Int → Prop) (step : Int) : (value : Int) → List Int → Prop where
  | stop {value : Int} : ¬continues value → Visits continues step value []
  | turn {value : Int} {values : List Int} :
      continues value → Visits continues step (value + step) values →
      Visits continues step value (value :: values)

/-- The values of a loop are determined by its condition, its step and its start. -/
theorem Visits.unique {continues : Int → Prop} {step value : Int} {left right : List Int}
    (leftVisits : Visits continues step value left)
    (rightVisits : Visits continues step value right) : left = right := by
  induction leftVisits generalizing right with
  | stop stops =>
      cases rightVisits with
      | stop _ => rfl
      | turn goesOn _ => exact absurd goesOn stops
  | turn goesOn _ ih =>
      cases rightVisits with
      | stop stops => exact absurd goesOn stops
      | turn _ tail => rw [ih tail]

/-- A loop that goes on for a number of turns and then stops runs through as many values. -/
theorem visits_map_range {continues : Int → Prop} {step value : Int} {count : Nat}
    (goesOn : ∀ index < count, continues (value + index * step))
    (stops : ¬continues (value + count * step)) :
    Visits continues step value
      ((List.range count).map fun index : Nat => value + index * step) := by
  induction count generalizing value with
  | zero =>
      rw [Int.natCast_zero, Int.zero_mul, Int.add_zero] at stops
      exact .stop stops
  | succ count ih =>
      have shifted : ∀ index : Nat,
          value + ((index + 1 : Nat) : Int) * step = value + step + index * step := by
        intro index
        rw [Int.natCast_add, Int.natCast_one, Int.add_mul, Int.one_mul]
        omega
      have first := goesOn 0 (Nat.succ_pos count)
      rw [Int.natCast_zero, Int.zero_mul, Int.add_zero] at first
      rw [List.range_succ_eq_map, List.map_cons, List.map_map, Int.natCast_zero, Int.zero_mul,
        Int.add_zero]
      refine .turn first ?_
      have same : (fun index : Nat => value + index * step) ∘ Nat.succ =
          fun index : Nat => value + step + index * step := by
        funext index
        exact shifted index
      rw [same]
      apply ih
      · intro index less
        rw [← shifted]
        exact goesOn (index + 1) (Nat.succ_lt_succ less)
      · rwa [← shifted]

/-! ## Ranges -/

/-- The number of steps of a positive size that stay below a distance. -/
def stepsWithin (distance size : Int) : Nat :=
  ((distance + size - 1) / size).toNat

theorem mul_lt_of_lt_stepsWithin {distance size : Int} (positive : 0 < size) {index : Nat}
    (less : index < stepsWithin distance size) : index * size < distance := by
  have bound : (index : Int) + 1 ≤ (distance + size - 1) / size := by
    rw [stepsWithin, Int.lt_toNat] at less
    omega
  have scaled := (Int.le_ediv_iff_mul_le positive).1 bound
  rw [Int.add_mul, Int.one_mul] at scaled
  omega

theorem le_stepsWithin_mul (distance : Int) {size : Int} (positive : 0 < size) :
    distance ≤ stepsWithin distance size * size := by
  have upper := Int.lt_ediv_add_one_mul_self (distance + size - 1) positive
  rw [Int.add_mul, Int.one_mul] at upper
  have count : (distance + size - 1) / size ≤ stepsWithin distance size := Int.self_le_toNat _
  have scaled := Int.mul_le_mul_of_nonneg_right count (Int.le_of_lt positive)
  omega

/-- The values of `range(start, stop, step)` for a step other than zero. -/
def rangeValues (start stop step : Int) : List Int :=
  let count :=
    if 0 < step then stepsWithin (stop - start) step else stepsWithin (start - stop) (-step)
  (List.range count).map fun index : Nat => start + index * step

theorem visits_rangeValues_up (start stop : Int) {step : Int} (upward : 0 < step) :
    Visits (· < stop) step start (rangeValues start stop step) := by
  rw [rangeValues, if_pos upward]
  refine visits_map_range ?_ ?_
  · intro index less
    have below := mul_lt_of_lt_stepsWithin upward less
    omega
  · have reached := le_stepsWithin_mul (stop - start) upward
    omega

theorem visits_rangeValues_down (start stop : Int) {step : Int} (downward : step < 0) :
    Visits (stop < ·) step start (rangeValues start stop step) := by
  have positive : 0 < -step := by omega
  rw [rangeValues, if_neg (by omega)]
  refine visits_map_range ?_ ?_
  · intro index less
    have below := mul_lt_of_lt_stepsWithin positive less
    rw [Int.mul_neg] at below
    omega
  · have reached := le_stepsWithin_mul (start - stop) positive
    rw [Int.mul_neg] at reached
    omega

/-! ## Comparisons -/

namespace Comparison

/-- A value compares with a bound. -/
def Holds (value bound : Int) : Comparison → Prop
  | below => value < bound
  | atMost => value ≤ bound
  | above => bound < value
  | atLeast => bound ≤ value

/-- A step leads towards the bound. -/
def Agrees (step : Int) : Comparison → Prop
  | below | atMost => 0 < step
  | above | atLeast => step < 0

instance (step : Int) (comparison : Comparison) : Decidable (comparison.Agrees step) :=
  match comparison with
  | below | atMost => inferInstanceAs (Decidable (0 < step))
  | above | atLeast => inferInstanceAs (Decidable (step < 0))

/-- The end of a range for a bound. -/
def stopValue (bound : Int) : Comparison → Int
  | below | above => bound
  | atMost => bound + 1
  | atLeast => bound - 1

theorem Agrees.ne_zero {step : Int} {comparison : Comparison}
    (agrees : comparison.Agrees step) : step ≠ 0 := by
  cases comparison <;> simp only [Agrees] at agrees <;> omega

theorem Agrees.direct_eq {step : Int} {comparison : Comparison}
    (agrees : comparison.Agrees step) : comparison.direct step = step := by
  cases comparison with
  | below | atMost => rfl
  | above | atLeast =>
      simp only [Agrees] at agrees
      exact if_neg (by omega)

/-- A range up to the end for a bound lists the values of the loop that compares with it. -/
theorem Agrees.visits {step : Int} {comparison : Comparison}
    (agrees : comparison.Agrees step) (start bound : Int) :
    Visits (comparison.Holds · bound) step start
      (rangeValues start (comparison.stopValue bound) step) := by
  cases comparison with
  | below => exact visits_rangeValues_up start bound agrees
  | above => exact visits_rangeValues_down start bound agrees
  | atMost =>
      have visits := visits_rangeValues_up start (bound + 1) agrees
      have same : (· < bound + 1) = (· ≤ bound) := by
        funext value
        exact propext Int.lt_add_one_iff
      rwa [same] at visits
  | atLeast =>
      have visits := visits_rangeValues_down start (bound - 1) agrees
      have same : (bound - 1 < ·) = (bound ≤ ·) := by
        funext value
        exact propext Int.sub_one_lt_iff
      rwa [same] at visits

end Comparison

end Offside
