import Mathlib.Data.Set.Operations
import Mathlib.Order.Bounds.Defs
import Offside.Proofs.Layout.Settling

/-!
# Stray closing lines

Every line has a weight: the number of blocks and loose braces that it opens, or minus one if it
closes something. The margin counts what is open, and it cannot go below zero: a closing line that
finds nothing open is remarked on and left out of the count. So the count is the running sum of the
weights and the number of remarks so far, and a line is stray exactly if it takes the running sum
to a new low.
-/

namespace Offside

/-! ## Weights -/

/-- How many blocks and loose braces more are open behind a line. A header opens a block even if it
has no brace. -/
def lineWeight (line : Text) : Int :=
  if closesBlock line then -1
  else if trim line = [] then 0
  else if (lineBody line).getLast? = some ':' then max 1 (openBraces line)
  else openBraces line

/-- The sum of the weights of the first lines. -/
def runningSum : List Text → (count : Nat) → Int
  | _, 0 => 0
  | [], _ + 1 => 0
  | text :: rest, count + 1 => lineWeight text + runningSum rest count

/-- The running sum is lower behind a number of lines than behind any smaller number of them,
hence below zero. -/
def ReachesLow (texts : List Text) (count : Nat) : Prop :=
  ∀ earlier < count, runningSum texts count < runningSum texts earlier

instance (texts : List Text) (count : Nat) : Decidable (ReachesLow texts count) :=
  inferInstanceAs (Decidable (∀ earlier < count, _))

@[simp] theorem runningSum_zero (texts : List Text) : runningSum texts 0 = 0 := by
  cases texts <;> rfl

@[simp] theorem runningSum_cons (text : Text) (rest : List Text) (count : Nat) :
    runningSum (text :: rest) (count + 1) = lineWeight text + runningSum rest count := rfl

theorem lineWeight_of_closes {line : Text} (closes : closesBlock line = true) :
    lineWeight line = -1 :=
  if_pos closes

/-- There is no opening brace among blanks, wherever they stand. -/
theorem countP_annotate_of_blank {blanks : Text} (blank : AllBlank blanks) (start : Quoting)
    {opens : Char × Quoting → Bool} (brace : ∀ marked, opens marked = true → marked.1 = '\x7b') :
    (start.annotate blanks).countP opens = 0 := by
  rw [List.countP_eq_zero]
  intro marked member opening
  have inBlanks := List.mem_map_of_mem (f := Prod.fst) member
  rw [Quoting.map_fst_annotate, brace marked opening] at inBlanks
  exact absurd (blank _ inBlanks) (by decide)

/-- Blanks around a line open nothing. -/
theorem openBraces_trim (line : Text) : openBraces (trim line) = openBraces line := by
  obtain ⟨front, back, frontBlank, backBlank, split⟩ := exists_surrounded_trim line
  conv_rhs => rw [split]
  rw [openBraces, openBraces, Quoting.annotate_append, Quoting.annotate_append,
    List.countP_append, List.countP_append, Quoting.after_of_blank frontBlank,
    countP_annotate_of_blank frontBlank _ (by simp), countP_annotate_of_blank backBlank _ (by simp),
    Nat.zero_add, Nat.add_zero]

/-! ## One line -/

/-- Number of open blocks and loose braces. -/
def Margin.unclosed (margin : Margin) : Nat :=
  margin.depth + margin.loose

theorem Margin.stray?_of_closes (margin : Margin) {line : Text} (closes : closesBlock line = true) :
    margin.stray? (.ofLine line) = if margin.unclosed = 0 then some (trim line) else none := by
  rw [LineShape.ofLine_of_closes closes]
  simp [Margin.stray?, Margin.unclosed]

theorem Margin.unclosed_next_of_closes (margin : Margin) {line : Text}
    (closes : closesBlock line = true) :
    (margin.next (.ofLine line)).unclosed = margin.unclosed - 1 := by
  rw [LineShape.ofLine_of_closes closes, Margin.next]
  split <;> simp only [Margin.unclosed] <;> omega

/-- A line that is no part of a branch and closes nothing opens as much as its weight says. -/
theorem Margin.unclosed_next_of_stays (margin : Margin) {line : Text}
    (stays : closesBlock line = false) (unbranched : continuesBranch (lineBody line) = false) :
    ((margin.next (.ofLine line)).unclosed : Int) = margin.unclosed + lineWeight line := by
  have first : (trim line).head? ≠ some '\x7d' := of_decide_eq_false stays
  rw [LineShape.ofLine_eq, if_neg first, lineWeight, stays, if_neg Bool.false_ne_true]
  split
  · simp [Margin.next, Margin.unclosed]
  split
  · next empty =>
      have noColon : (lineBody line).getLast? ≠ some ':' := by
        rw [lineBody, empty]
        simp
      rw [if_neg noColon, openBraces_trim]
      simp only [Margin.next, Margin.unclosed]
      omega
  · have body : trim (dropBraces (trim line)) = lineBody line := rfl
    rw [body, LineShape.ofBody, unbranched, if_neg Bool.false_ne_true, openBraces_trim]
    split
    · simp only [Margin.next, Margin.unclosed]
      omega
    · simp only [Margin.next, Margin.unclosed]
      omega

/-- What is open behind a line was open before, or the line has opened it. A stray line closes what
was not open, and does not count. -/
theorem Margin.unclosed_next (margin : Margin) {line : Text}
    (unbranched : continuesBranch (lineBody line) = false) :
    ((margin.next (.ofLine line)).unclosed : Int) =
      margin.unclosed + lineWeight line + (margin.stray? (.ofLine line)).toList.length := by
  cases closes : closesBlock line with
  | false =>
      rw [margin.unclosed_next_of_stays closes unbranched, margin.stray?_of_stays closes]
      simp
  | true =>
      rw [margin.unclosed_next_of_closes closes, margin.stray?_of_closes closes,
        lineWeight_of_closes closes]
      split
      · next nothing => simp [nothing]
      · next something =>
          simp only [Option.toList_none, List.length_nil]
          omega

/-- The count goes by the weight of the line, but not below zero. -/
theorem Margin.unclosed_next_eq_max (margin : Margin) {line : Text}
    (unbranched : continuesBranch (lineBody line) = false) :
    ((margin.next (.ofLine line)).unclosed : Int) = max 0 (margin.unclosed + lineWeight line) := by
  cases closes : closesBlock line with
  | false =>
      have counted := margin.unclosed_next_of_stays closes unbranched
      omega
  | true =>
      rw [margin.unclosed_next_of_closes closes, lineWeight_of_closes closes]
      omega

/-! ## All lines -/

/-- The remark on a closing line that finds nothing open. -/
def strayRemark (line : Nat) (text : Text) : Remark :=
  { origin := Pass.layout.name, line, reason := .strayClose, snippet := trim text }

/-- With so much open in front of the lines, the running sum falls below zero, to a new low. -/
def FallsBelow (opened : Nat) (texts : List Text) (count : Nat) : Prop :=
  runningSum texts count < -opened ∧ ReachesLow texts count

instance (opened : Nat) (texts : List Text) (count : Nat) :
    Decidable (FallsBelow opened texts count) :=
  inferInstanceAs (Decidable (_ ∧ _))

theorem fallsBelow_zero {texts : List Text} {count : Nat} :
    FallsBelow 0 texts (count + 1) ↔ ReachesLow texts (count + 1) := by
  constructor
  · exact fun falls => falls.2
  · intro low
    have first := low 0 (Nat.succ_pos count)
    rw [runningSum_zero] at first
    exact ⟨by simpa using first, low⟩

theorem fallsBelow_one {opened : Nat} {text : Text} {rest : List Text}
    (closes : closesBlock text = true) : FallsBelow opened (text :: rest) 1 ↔ opened = 0 := by
  have sum : runningSum (text :: rest) 1 = -1 := by
    rw [runningSum_cons, runningSum_zero, lineWeight_of_closes closes]
    rfl
  constructor
  · intro falls
    have below := falls.1
    rw [sum] at below
    omega
  · rintro rfl
    refine fallsBelow_zero.2 fun earlier less => ?_
    rw [Nat.lt_one_iff.1 less, sum, runningSum_zero]
    decide

/-- Behind the first line the same lows are reached, measured from what is open there. -/
theorem fallsBelow_cons {margin : Margin} {text : Text} {rest : List Text} {count : Nat}
    (unbranched : continuesBranch (lineBody text) = false) :
    FallsBelow margin.unclosed (text :: rest) (count + 2) ↔
      FallsBelow (margin.next (.ofLine text)).unclosed rest (count + 1) := by
  have clamped := margin.unclosed_next_eq_max unbranched
  constructor
  · rintro ⟨below, low⟩
    constructor
    · have first := low 1 (by omega)
      rw [runningSum_cons, runningSum_cons, runningSum_zero] at first
      rw [runningSum_cons] at below
      omega
    · intro earlier less
      have later := low (earlier + 1) (by omega)
      rw [runningSum_cons, runningSum_cons] at later
      omega
  · rintro ⟨below, low⟩
    have sum : runningSum (text :: rest) (count + 2) < -margin.unclosed := by
      rw [runningSum_cons]
      omega
    refine ⟨sum, fun earlier less => ?_⟩
    cases earlier with
    | zero =>
        rw [runningSum_zero]
        omega
    | succ earlier =>
        have later := low earlier (by omega)
        rw [runningSum_cons, runningSum_cons]
        omega

/-- The closing lines at which the sum falls below zero, with their indices. -/
def strayLines (opened : Nat) (texts : List Text) : List (Text × Nat) :=
  texts.zipIdx.filter fun (text, index) =>
    closesBlock text && decide (FallsBelow opened texts (index + 1))

theorem strayLines_cons (margin : Margin) {text : Text} (rest : List Text)
    (unbranched : continuesBranch (lineBody text) = false) :
    strayLines margin.unclosed (text :: rest) =
      (if closesBlock text = true ∧ margin.unclosed = 0 then [(text, 0)] else []) ++
        (strayLines (margin.next (.ofLine text)).unclosed rest).map
          fun (other, index) => (other, index + 1) := by
  have first : (closesBlock text && decide (FallsBelow margin.unclosed (text :: rest) 1)) =
      decide (closesBlock text = true ∧ margin.unclosed = 0) := by
    cases closes : closesBlock text with
    | false => simp
    | true => simp [fallsBelow_one closes]
  have later : ∀ other : Text × Nat,
      (closesBlock other.1 && decide (FallsBelow margin.unclosed (text :: rest) (other.2 + 2))) =
        (closesBlock other.1 &&
          decide (FallsBelow (margin.next (.ofLine text)).unclosed rest (other.2 + 1))) := by
    intro other
    rw [decide_eq_decide.2 (fallsBelow_cons unbranched)]
  rw [strayLines, strayLines, List.zipIdx_cons, List.zipIdx_succ, List.filter_cons, List.filter_map]
  simp only [Function.comp_def, Nat.add_assoc, Nat.reduceAdd, later, first]
  split <;> simp_all

namespace Layout

/-- The remarks on lines are those on the closing lines at which the sum falls below zero, measured
from what is open in front of them. -/
theorem remarks_eq_map_strayLines {texts : List Text}
    (unbranched : ∀ text ∈ texts, continuesBranch (lineBody text) = false) (margin : Margin)
    (line : Nat) :
    (ofLinesFrom margin line texts).remarks =
      (strayLines margin.unclosed texts).map
        fun (text, index) => strayRemark (line + index) text := by
  induction texts generalizing margin line with
  | nil => rfl
  | cons text rest ih =>
      obtain ⟨here, behind⟩ := List.forall_mem_cons.1 unbranched
      have first : ((margin.stray? (.ofLine text)).map fun snippet => Remark.mk
            Pass.layout.name line .strayClose snippet).toList =
          (if closesBlock text = true ∧ margin.unclosed = 0 then [(text, 0)] else []).map
            fun (text, index) => strayRemark (line + index) text := by
        cases closes : closesBlock text with
        | false =>
            rw [margin.stray?_of_stays closes]
            rfl
        | true =>
            rw [margin.stray?_of_closes closes]
            by_cases nothing : margin.unclosed = 0 <;> simp [nothing, strayRemark]
      rw [ofLinesFrom, strayLines_cons margin rest here, List.map_append, ← first,
        ih behind (margin.next (.ofLine text)) (line + 1), List.map_map]
      simp only [Function.comp_def, Nat.add_assoc, Nat.add_comm 1]

theorem length_remarks_cons (margin : Margin) (line : Nat) (text : Text) (rest : List Text) :
    (ofLinesFrom margin line (text :: rest)).remarks.length =
      (margin.stray? (.ofLine text)).toList.length +
        (ofLinesFrom (margin.next (.ofLine text)) (line + 1) rest).remarks.length := by
  rw [ofLinesFrom]
  cases margin.stray? (.ofLine text) <;> simp [Nat.add_comm]

section Count

variable {texts : List Text}
  (unbranched : ∀ text ∈ texts, continuesBranch (lineBody text) = false)
include unbranched

/-- Everything that is closed was open in front of the lines, or opened by one of them, or the
closing line is remarked on. -/
theorem neg_le_runningSum (margin : Margin) (line count : Nat) :
    -((ofLinesFrom margin line texts).remarks.length + margin.unclosed : Int) ≤
      runningSum texts count := by
  induction texts generalizing margin line count with
  | nil => cases count <;> simp [runningSum, ofLinesFrom]
  | cons text rest ih =>
      obtain ⟨here, behind⟩ := List.forall_mem_cons.1 unbranched
      cases count with
      | zero =>
          rw [runningSum_zero]
          omega
      | succ count =>
          have counted := margin.unclosed_next here
          have tail := ih behind (margin.next (.ofLine text)) (line + 1) count
          rw [runningSum_cons, length_remarks_cons]
          omega

/-- At the last line that is remarked on, the sum is as low as the remarks say. -/
theorem exists_runningSum_eq (margin : Margin) (line : Nat)
    (remarked : 0 < (ofLinesFrom margin line texts).remarks.length) :
    ∃ count, runningSum texts count =
      -((ofLinesFrom margin line texts).remarks.length + margin.unclosed : Int) := by
  induction texts generalizing margin line with
  | nil => exact absurd remarked (Nat.lt_irrefl 0)
  | cons text rest ih =>
      obtain ⟨here, behind⟩ := List.forall_mem_cons.1 unbranched
      have counted := margin.unclosed_next here
      have clamped := margin.unclosed_next_eq_max here
      rw [length_remarks_cons] at remarked ⊢
      by_cases later :
          0 < (ofLinesFrom (margin.next (.ofLine text)) (line + 1) rest).remarks.length
      · obtain ⟨count, sum⟩ := ih behind _ _ later
        refine ⟨count + 1, ?_⟩
        rw [runningSum_cons, sum]
        omega
      · -- The first line is the last that is remarked on, so nothing was open and nothing is.
        refine ⟨1, ?_⟩
        rw [runningSum_cons, runningSum_zero]
        have stray : (margin.stray? (.ofLine text)).toList.length ≤ 1 := by
          cases margin.stray? (.ofLine text) <;> simp
        omega

/-- The number of remarks is the depth to which the running sum falls. -/
theorem isLeast_runningSum :
    IsLeast (Set.range (runningSum texts)) (-((ofLines texts).remarks.length : Int)) := by
  have nothing : Margin.unclosed {} = 0 := rfl
  rw [ofLines]
  constructor
  · by_cases remarked : 0 < (ofLinesFrom {} 1 texts).remarks.length
    · obtain ⟨count, sum⟩ := exists_runningSum_eq unbranched {} 1 remarked
      rw [nothing] at sum
      exact ⟨count, by simpa using sum⟩
    · exact ⟨0, by rw [runningSum_zero]; omega⟩
  · rintro _ ⟨count, rfl⟩
    have bound := neg_le_runningSum unbranched {} 1 count
    rw [nothing] at bound
    simpa using bound

end Count

/-- Where no line goes on with a branch, the lines that are remarked on are the closing lines at
which the running sum of the weights reaches a new low below zero, in their order. So there are as
many remarks as the running sum falls below zero, and none if it does not. -/
theorem remarks_ofLines {texts : List Text}
    (unbranched : ∀ text ∈ texts, continuesBranch (lineBody text) = false) :
    (ofLines texts).remarks =
        (texts.zipIdx.filter fun (text, index) =>
          closesBlock text && decide (ReachesLow texts (index + 1))).map
          (fun (text, index) => strayRemark (index + 1) text) ∧
      (∃ least, IsLeast (Set.range (runningSum texts)) least ∧
        ((ofLines texts).remarks.length : Int) = max 0 (-least)) ∧
      ((∀ count, 0 ≤ runningSum texts count) → (ofLines texts).remarks = []) := by
  have least := isLeast_runningSum unbranched
  refine ⟨?_, ⟨_, least, by omega⟩, ?_⟩
  · have remarks := remarks_eq_map_strayLines unbranched {} 1
    have nothing : Margin.unclosed {} = 0 := rfl
    rw [ofLines, remarks, nothing, strayLines]
    simp only [decide_eq_decide.2 fallsBelow_zero, Nat.add_comm 1]
  · intro nonneg
    obtain ⟨count, sum⟩ := least.1
    have bound := nonneg count
    exact List.length_eq_zero_iff.1 (by omega)

/-- Two braces on one line, a header without a brace, and a brace in a literal. -/
theorem remarks_ofLines_sample :
    let texts := ["\x7d".toList, "do \x7b\x7b".toList, "if a:".toList, "s = '\x7b'".toList,
      " \x7d".toList, "\x7d".toList, "\x7d".toList, "".toList, "\x7d ;".toList]
    (∀ text ∈ texts, continuesBranch (lineBody text) = false) ∧
      (ofLines texts).remarks =
        [strayRemark 1 "\x7d".toList, strayRemark 9 "\x7d ;".toList] := by
  intro texts
  have unbranched : ∀ text ∈ texts, continuesBranch (lineBody text) = false := by decide
  exact ⟨unbranched, (remarks_ofLines unbranched).1.trans (by decide)⟩

end Layout

end Offside
