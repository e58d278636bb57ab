import Offside.Proofs.Layout.Recovery
import Offside.Proofs.Naming
import Offside.Proofs.Sequence

/-!
# Legal layout

Whatever the input, the output has an indentation that Python can read. The layout pass sets
each line at most one level deeper than the line before it, and deeper only behind a line that
opens a block; the renaming of variables touches neither the indentation of a line nor what
opens a block; and trimming takes away blank lines only, because the first line is not
indented.
-/

namespace Offside

/-! ## What Python asks for -/

/-- Whether a line, without its indentation, opens a block. -/
def opensBlock (body : Text) : Bool :=
  body.getLast? = some ':' || continuesBranch body

/-- A line that is indented by four spaces for each level of depth, with a body that starts
with no blank. -/
structure SetAt (line : Text) (depth : Nat) (body : Text) : Prop where
  line_eq : line = atDepth depth body
  nonempty : body ≠ []
  startsSolid : StartsSolid body

/-- The lines of a legal layout. -/
structure LegalLayout (lines : List Text) : Prop where
  /-- The first line is not indented, unless there is nothing but an empty line. -/
  flush : lines ≠ [[]] → ∃ body, ∃ rest, lines = body :: rest ∧ SetAt body 0 body
  /-- Every line that is not blank stands at some depth. -/
  levels : ∀ line ∈ lines, ¬ AllBlank line → ∃ depth body, SetAt line depth body
  /-- From one line to the next, blank lines apart, the depth grows by one level at most, and
  grows only behind a line that opens a block. -/
  steps : ∀ front line between next back, lines = front ++ line :: (between ++ next :: back) →
    (∀ text ∈ between, AllBlank text) →
    ∀ depth body nextDepth nextBody, SetAt line depth body → SetAt next nextDepth nextBody →
      nextDepth ≤ depth + 1 ∧ (depth < nextDepth → opensBlock body = true)

/-- The widths of the open levels, innermost first and without the outermost one, behind a line
of some width. There are none when the line is deeper although no block was opened, or when it
goes back to a width that is not open. -/
def indentLevels? (levels : List Nat) (opened : Bool) (width : Nat) : Option (List Nat) :=
  if levels.headD 0 < width then
    if opened then some (width :: levels) else none
  else
    let left := levels.dropWhile (width < ·)
    if left.headD 0 = width then some left else none

/-- Whether lines can be read by keeping track of the open levels. -/
def acceptsIndentation : (levels : List Nat) → (opened : Bool) → List Text → Bool
  | _, _, [] => true
  | levels, opened, line :: rest =>
      if line.all isBlank then
        acceptsIndentation levels opened rest
      else
        match indentLevels? levels opened (line.takeWhile (· = ' ')).length with
        | none => false
        | some levels => acceptsIndentation levels (opensBlock (line.dropWhile (· = ' '))) rest

/-! ## Steps of depth -/

/-- Lines of which the first that is not empty stands at a depth up to `limit`, and every
other one at a depth up to what the one before it allows. -/
inductive Stepped : (limit : Nat) → List Text → Prop where
  | nil {limit : Nat} : Stepped limit []
  | blank {limit : Nat} {rest : List Text} : Stepped limit rest → Stepped limit ([] :: rest)
  | line {limit depth : Nat} {body : Text} {rest : List Text} :
      depth ≤ limit → body ≠ [] → StartsSolid body → EndsSolid body →
      Stepped (depth + (opensBlock body).toNat) rest →
      Stepped limit (atDepth depth body :: rest)

theorem Stepped.mono {limit higher : Nat} {lines : List Text} (stepped : Stepped limit lines)
    (le : limit ≤ higher) : Stepped higher lines := by
  induction stepped generalizing higher with
  | nil => exact .nil
  | blank _ ih => exact .blank (ih le)
  | line depthLe nonempty starts ends rest _ =>
      exact .line (Nat.le_trans depthLe le) nonempty starts ends rest

/-- The first of stepped lines is empty, or it is set within the limit. -/
theorem Stepped.cons_cases {limit : Nat} {line : Text} {rest : List Text}
    (stepped : Stepped limit (line :: rest)) :
    (line = [] ∧ Stepped limit rest) ∨
      ∃ depth body, depth ≤ limit ∧ SetAt line depth body ∧ EndsSolid body ∧
        Stepped (depth + (opensBlock body).toNat) rest := by
  cases stepped with
  | blank stepped => exact .inl ⟨rfl, stepped⟩
  | line depthLe nonempty starts ends stepped =>
      exact .inr ⟨_, _, depthLe, ⟨rfl, nonempty, starts⟩, ends, stepped⟩

theorem Stepped.of_setAt {limit depth : Nat} {line body : Text} {rest : List Text}
    (le : depth ≤ limit) (set : SetAt line depth body) (ends : EndsSolid body)
    (stepped : Stepped (depth + (opensBlock body).toNat) rest) :
    Stepped limit (line :: rest) := by
  rw [set.line_eq]
  exact .line le set.nonempty set.startsSolid ends stepped

namespace SetAt

variable {line body : Text} {depth : Nat}

theorem ne_nil (set : SetAt line depth body) : line ≠ [] := by
  rw [set.line_eq]
  simp [atDepth, set.nonempty]

theorem not_allBlank (set : SetAt line depth body) : ¬ AllBlank line := by
  intro blank
  cases shape : body with
  | nil => exact set.nonempty shape
  | cons char rest =>
      have solid := set.startsSolid char (by simp [shape])
      have member : char ∈ line := by
        rw [set.line_eq, shape, atDepth]
        simp
      rw [blank char member] at solid
      cases solid

theorem endsSolid (set : SetAt line depth body) (ends : EndsSolid body) : EndsSolid line := by
  rw [set.line_eq]
  exact EndsSolid.append ends set.nonempty

private theorem stop (set : SetAt line depth body) :
    ∀ char, body.head? = some char → decide (char = ' ') = false := by
  intro char first
  have solid := set.startsSolid char first
  simp only [decide_eq_false_iff_not]
  rintro rfl
  revert solid
  decide

theorem length_takeWhile (set : SetAt line depth body) :
    (line.takeWhile (· = ' ')).length = 4 * depth := by
  rw [set.line_eq, atDepth, takeWhile_append_of_stop (by simp) set.stop,
    List.length_replicate]

theorem dropWhile_eq (set : SetAt line depth body) : line.dropWhile (· = ' ') = body := by
  rw [set.line_eq, atDepth]
  exact dropWhile_append_of_stop (by simp) set.stop

/-- A line has one depth and one body only. -/
theorem unique (set : SetAt line depth body) {otherDepth : Nat} {otherBody : Text}
    (other : SetAt line otherDepth otherBody) : depth = otherDepth ∧ body = otherBody := by
  have width := set.length_takeWhile.symm.trans other.length_takeWhile
  exact ⟨by omega, set.dropWhile_eq.symm.trans other.dropWhile_eq⟩

end SetAt

namespace Stepped

variable {limit : Nat} {lines front back rest : List Text}

/-- The front of stepped lines is stepped. -/
theorem of_append (stepped : Stepped limit (front ++ back)) : Stepped limit front := by
  induction front generalizing limit with
  | nil => exact .nil
  | cons line front ih =>
      rcases stepped.cons_cases with ⟨rfl, behind⟩ | ⟨depth, body, le, set, ends, behind⟩
      · exact .blank (ih behind)
      · exact .of_setAt le set ends (ih behind)

/-- What stands behind the front of stepped lines is stepped from some limit on. -/
theorem exists_of_append (stepped : Stepped limit (front ++ back)) :
    ∃ behind, Stepped behind back := by
  induction front generalizing limit with
  | nil => exact ⟨limit, stepped⟩
  | cons line front ih =>
      rcases stepped.cons_cases with ⟨_, behind⟩ | ⟨depth, body, _, _, _, behind⟩
      · exact ih behind
      · exact ih behind

theorem of_append_blank (blank : ∀ text ∈ front, AllBlank text)
    (stepped : Stepped limit (front ++ back)) : Stepped limit back := by
  induction front with
  | nil => exact stepped
  | cons line front ih =>
      rcases stepped.cons_cases with ⟨_, behind⟩ | ⟨depth, body, _, set, _, _⟩
      · exact ih (fun text member => blank text (List.mem_cons_of_mem _ member)) behind
      · exact absurd (blank line List.mem_cons_self) set.not_allBlank

theorem exists_setAt (stepped : Stepped limit lines) {line : Text} (member : line ∈ lines)
    (filled : line ≠ []) : ∃ depth body, SetAt line depth body ∧ EndsSolid body := by
  obtain ⟨front, back, rfl⟩ := List.append_of_mem member
  obtain ⟨behind, stepped⟩ := stepped.exists_of_append
  rcases stepped.cons_cases with ⟨empty, _⟩ | ⟨depth, body, _, set, ends, _⟩
  · exact absurd empty filled
  · exact ⟨depth, body, set, ends⟩

/-- Stepped lines that start with a line at depth zero are a legal layout. -/
theorem legalLayout {first : Text} (stepped : Stepped 0 (first :: rest)) (filled : first ≠ []) :
    LegalLayout (first :: rest) where
  flush := by
    intro _
    rcases stepped.cons_cases with ⟨empty, _⟩ | ⟨depth, body, le, set, _, _⟩
    · exact absurd empty filled
    · obtain rfl : depth = 0 := Nat.le_zero.1 le
      obtain rfl : first = body := set.line_eq
      exact ⟨first, rest, rfl, set⟩
  levels := by
    intro line member visible
    have filled : line ≠ [] := by
      rintro rfl
      exact visible allBlank_nil
    obtain ⟨depth, body, set, _⟩ := stepped.exists_setAt member filled
    exact ⟨depth, body, set⟩
  steps := by
    intro front line between next back split blank depth body nextDepth nextBody set nextSet
    rw [split] at stepped
    obtain ⟨behind, stepped⟩ := stepped.exists_of_append
    rcases stepped.cons_cases with ⟨empty, _⟩ | ⟨lineDepth, lineBody, _, lineSet, _, stepped⟩
    · exact absurd empty set.ne_nil
    obtain ⟨rfl, rfl⟩ := lineSet.unique set
    rcases (of_append_blank blank stepped).cons_cases with
      ⟨empty, _⟩ | ⟨depth, body, le, set, _, _⟩
    · exact absurd empty nextSet.ne_nil
    obtain ⟨rfl, rfl⟩ := set.unique nextSet
    cases opens : opensBlock lineBody with
    | true =>
        rw [opens, Bool.toNat_true] at le
        exact ⟨le, fun _ => rfl⟩
    | false =>
        rw [opens, Bool.toNat_false] at le
        exact ⟨by omega, fun deeper => by omega⟩

end Stepped

theorem legalLayout_nil : LegalLayout [[]] where
  flush := fun different => absurd rfl different
  levels := by
    intro line member visible
    rw [List.mem_singleton] at member
    exact absurd (member ▸ allBlank_nil) visible
  steps := by
    intro front line between next back split
    have count := congrArg List.length split
    simp only [List.length_append, List.length_cons, List.length_nil] at count
    omega

/-! ## Keeping track of the open levels -/

/-- The open levels at some depth. -/
def levelsTo : (depth : Nat) → List Nat
  | 0 => []
  | depth + 1 => 4 * (depth + 1) :: levelsTo depth

theorem headD_levelsTo (depth : Nat) : (levelsTo depth).headD 0 = 4 * depth := by
  cases depth <;> rfl

theorem dropWhile_levelsTo {depth lower : Nat} (le : lower ≤ depth) :
    (levelsTo depth).dropWhile (4 * lower < ·) = levelsTo lower := by
  induction depth with
  | zero =>
      obtain rfl : lower = 0 := Nat.le_zero.1 le
      rfl
  | succ depth ih =>
      rcases Nat.lt_or_eq_of_le le with less | rfl
      · have wider : 4 * lower < 4 * (depth + 1) := by omega
        rw [levelsTo, List.dropWhile_cons_of_pos (by simpa using wider)]
        exact ih (Nat.le_of_lt_succ less)
      · rw [levelsTo, List.dropWhile_cons_of_neg (by simp)]

theorem indentLevels?_levelsTo {depth next : Nat} {opened : Bool}
    (le : next ≤ depth + opened.toNat) :
    indentLevels? (levelsTo depth) opened (4 * next) = some (levelsTo next) := by
  rw [indentLevels?, headD_levelsTo]
  by_cases deeper : depth < next
  · cases opened with
    | false =>
        rw [Bool.toNat_false] at le
        omega
    | true =>
        rw [Bool.toNat_true] at le
        obtain rfl : next = depth + 1 := by omega
        rw [if_pos (by omega), if_pos rfl, levelsTo]
  · rw [if_neg (by omega), dropWhile_levelsTo (by omega)]
    simp only [headD_levelsTo, if_true]

/-- Stepped lines are read without a fault. -/
theorem Stepped.acceptsIndentation {depth : Nat} {opened : Bool} {lines : List Text}
    (stepped : Stepped (depth + opened.toNat) lines) :
    acceptsIndentation (levelsTo depth) opened lines = true := by
  induction lines generalizing depth opened with
  | nil => rfl
  | cons line rest ih =>
      rcases stepped.cons_cases with ⟨rfl, behind⟩ | ⟨next, body, le, set, _, behind⟩
      · exact ih behind
      · have visible : line.all isBlank = false := by
          rw [← Bool.not_eq_true, List.all_eq_true]
          exact set.not_allBlank
        rw [Offside.acceptsIndentation, visible, if_neg (by simp), set.length_takeWhile,
          indentLevels?_levelsTo le, set.dropWhile_eq]
        exact ih behind

/-! ## The layout pass -/

theorem dropBraces_sublist (line : Text) : (dropBraces line).Sublist line := by
  have inside : (dropBraces line).Sublist ((Quoting.outside.annotate line).map Prod.fst) :=
    List.filter_sublist.map Prod.fst
  rwa [Quoting.map_fst_annotate] at inside

theorem mem_of_mem_dropBraces {text : Text} {char : Char} (member : char ∈ dropBraces text) :
    char ∈ text :=
  (dropBraces_sublist text).subset member

/-- A body is set at the depth of the open blocks or, as the next part of a branch, one level
above. Only if it opens a block there are more of them behind it. -/
theorem Margin.set?_ofBody (margin : Margin) (body : Text) (opened : Nat) :
    ∃ depth, depth ≤ margin.depth ∧
      margin.set? (.ofBody body opened) = some (atDepth depth body) ∧
      (margin.next (.ofBody body opened)).depth = depth + (opensBlock body).toNat := by
  rw [LineShape.ofBody]
  split
  · next continues =>
      refine ⟨margin.depth - 1, Nat.sub_le _ _, ?_, ?_⟩
      · rw [Margin.set?, indented_eq_atDepth]
      · simp [Margin.next, opensBlock, continues]
  next plain =>
  split
  · next colon =>
      refine ⟨margin.depth, Nat.le_refl _, ?_, ?_⟩
      · rw [Margin.set?, indented_eq_atDepth]
      · simp [Margin.next, opensBlock, colon]
  · next noColon =>
      refine ⟨margin.depth, Nat.le_refl _, ?_, ?_⟩
      · rw [Margin.set?, indented_eq_atDepth]
      · simp [Margin.next, opensBlock, noColon, plain]

/-- What a line does to the layout: it disappears and may close a block, or it is set as an
empty line, or its body is set. -/
theorem Margin.set?_cases (margin : Margin) (text : Text) :
    (margin.set? (.ofLine text) = none ∧ (margin.next (.ofLine text)).depth ≤ margin.depth) ∨
    (margin.set? (.ofLine text) = some [] ∧
      (margin.next (.ofLine text)).depth = margin.depth) ∨
    ∃ depth body, depth ≤ margin.depth ∧
      margin.set? (.ofLine text) = some (atDepth depth body) ∧ body ≠ [] ∧ trim body = body ∧
      (∀ char ∈ body, char ∈ text) ∧
      (margin.next (.ofLine text)).depth = depth + (opensBlock body).toNat := by
  rw [LineShape.ofLine_eq]
  split
  · exact .inr (.inl ⟨rfl, rfl⟩)
  split
  · refine .inl ⟨rfl, ?_⟩
    rw [Margin.next]
    split <;> simp
  split
  · exact .inr (.inl ⟨rfl, rfl⟩)
  · next filled =>
      have inside : ∀ char ∈ trim (dropBraces (trim text)), char ∈ text :=
        fun char member => mem_of_mem_trim (mem_of_mem_dropBraces (mem_of_mem_trim member))
      obtain ⟨depth, le, set, next⟩ :=
        margin.set?_ofBody (trim (dropBraces (trim text))) (openBraces (trim text))
      exact .inr (.inr ⟨depth, _, le, set, filled, trim_trim _, inside, next⟩)

theorem Layout.stepped_ofLinesFrom (texts : List Text) {margin : Margin} {limit : Nat}
    (within : margin.depth ≤ limit) (line : Nat) :
    Stepped limit (Layout.ofLinesFrom margin line texts).lines := by
  induction texts generalizing margin limit line with
  | nil => exact .nil
  | cons text texts ih =>
      rw [Layout.ofLinesFrom]
      rcases margin.set?_cases text with ⟨set, next⟩ | ⟨set, next⟩ |
        ⟨depth, body, le, set, filled, trimmed, _, next⟩
      · simp only [set, Option.toList_none, List.nil_append]
        exact ih (Nat.le_trans next within) (line + 1)
      · simp only [set, Option.toList_some, List.singleton_append]
        exact .blank (ih (next ▸ within) (line + 1))
      · simp only [set, Option.toList_some, List.singleton_append]
        obtain ⟨starts, ends⟩ := trim_eq_self_iff.1 trimmed
        exact .line (Nat.le_trans le within) filled starts ends
          (ih (Nat.le_of_eq next) (line + 1))

/-- Every line that is set was set for one of the lines, under some margin. -/
theorem Layout.exists_set?_of_mem {texts : List Text} {margin : Margin} {line : Nat}
    {setText : Text} (member : setText ∈ (Layout.ofLinesFrom margin line texts).lines) :
    ∃ text ∈ texts, ∃ here : Margin, here.set? (.ofLine text) = some setText := by
  induction texts generalizing margin line with
  | nil => cases member
  | cons text texts ih =>
      rcases List.mem_append.1 member with first | behind
      · exact ⟨text, List.mem_cons_self, margin, Option.mem_toList.1 first⟩
      · obtain ⟨other, inTexts, here, set⟩ := ih behind
        exact ⟨other, List.mem_cons_of_mem text inTexts, here, set⟩

/-- A line is set with characters of its own and spaces in front of them. -/
theorem Margin.mem_of_set? {margin : Margin} {text setText : Text} {char : Char}
    (set : margin.set? (.ofLine text) = some setText) (member : char ∈ setText) :
    char = ' ' ∨ char ∈ text := by
  rcases margin.set?_cases text with ⟨unset, _⟩ | ⟨empty, _⟩ |
    ⟨depth, body, _, filled, _, _, inside, _⟩
  · rw [unset] at set
    cases set
  · rw [empty, Option.some.injEq] at set
    simp [← set] at member
  · rw [filled, Option.some.injEq] at set
    rw [← set, atDepth, List.mem_append] at member
    rcases member with inIndent | inBody
    · exact .inl (List.eq_of_mem_replicate inIndent)
    · exact .inr (inside char inBody)

/-- Setting lines makes no new lines inside them. -/
theorem Layout.newline_notMem_ofLinesFrom {texts : List Text}
    (single : ∀ text ∈ texts, '\n' ∉ text) (margin : Margin) (line : Nat) :
    ∀ setText ∈ (Layout.ofLinesFrom margin line texts).lines, '\n' ∉ setText := by
  intro setText member newline
  obtain ⟨text, inTexts, here, set⟩ := Layout.exists_set?_of_mem member
  rcases Margin.mem_of_set? set newline with space | inText
  · revert space
    decide
  · exact single text inTexts inText

theorem newline_notMem_layout_lines (text : Text) :
    ∀ setText ∈ (Layout.ofLines (lines text)).lines, '\n' ∉ setText :=
  Layout.newline_notMem_ofLinesFrom (fun _ => newline_notMem_of_mem_lines) {} 1

/-! ## Renaming -/

/-- Renaming puts something behind words at most, and touches no keyword of a branch. -/
structure Extends (image : Text → Text) : Prop where
  behind : ∀ word, ∃ ending, image word = word ++ ending ∧ EndsSolid ending ∧ '\n' ∉ ending
  elif : image "elif".toList = "elif".toList
  otherwise : image "else".toList = "else".toList

theorem extends_renamedWord {name : Text} (builtin : name ∈ builtinNames.map String.toList) :
    Extends (renamedWord name) where
  behind := by
    intro word
    by_cases same : word = name
    · refine ⟨freshEnding.toList, by rw [renamedWord, if_pos same, same, freshName], ?_,
        by decide⟩
      exact (trim_eq_self_iff.1 (by decide)).2
    · exact ⟨[], by rw [renamedWord, if_neg same, List.append_nil], endsSolid_nil, by simp⟩
  elif := by
    revert name
    decide
  otherwise := by
    revert name
    decide

namespace Extends

variable {image : Text → Text}

theorem head?_mapWords (extended : Extends image) (text : Text) :
    (mapWords image text).head? = text.head? := by
  rcases word_cases text with rfl | ⟨char, rest, outside, rfl⟩ |
    ⟨word, rest, isWord, closes, rfl⟩
  · rw [mapWords_nil]
  · rw [mapWords_cons_of_outside image outside]
    rfl
  · obtain ⟨ending, behind, _⟩ := extended.behind word
    rw [mapWords_append_of_isWord image isWord closes, behind]
    cases word with
    | nil => exact absurd rfl isWord.nonempty
    | cons char word => rfl

theorem mapWords_ne_nil (extended : Extends image) {text : Text} (nonempty : text ≠ []) :
    mapWords image text ≠ [] := by
  intro empty
  have first := extended.head?_mapWords text
  rw [empty, List.head?_nil, eq_comm, List.head?_eq_none_iff] at first
  exact nonempty first

theorem endsSolid_mapWords (extended : Extends image) {text : Text} (solid : EndsSolid text) :
    EndsSolid (mapWords image text) := by
  induction text using word_induction with
  | nil =>
      rw [mapWords_nil]
      exact endsSolid_nil
  | outside char rest outside ih =>
      rw [mapWords_cons_of_outside image outside]
      by_cases empty : rest = []
      · subst empty
        rw [mapWords_nil]
        exact solid
      · rw [← List.singleton_append] at solid ⊢
        exact (ih (solid.of_append)).append (extended.mapWords_ne_nil empty)
  | word word rest isWord closes ih =>
      rw [mapWords_append_of_isWord image isWord closes]
      by_cases empty : rest = []
      · subst empty
        obtain ⟨ending, behind, endingSolid, _⟩ := extended.behind word
        rw [mapWords_nil, List.append_nil, behind]
        rw [List.append_nil] at solid
        by_cases unchanged : ending = []
        · rwa [unchanged, List.append_nil]
        · exact endingSolid.append unchanged
      · exact (ih (solid.of_append)).append (extended.mapWords_ne_nil empty)

theorem newline_notMem_mapWords (extended : Extends image) {text : Text}
    (single : '\n' ∉ text) : '\n' ∉ mapWords image text := by
  induction text using word_induction with
  | nil => simp
  | outside char rest outside ih =>
      rw [List.mem_cons, not_or] at single
      rw [mapWords_cons_of_outside image outside, List.mem_cons, not_or]
      exact ⟨single.1, ih single.2⟩
  | word word rest isWord closes ih =>
      obtain ⟨ending, behind, _, endingSingle⟩ := extended.behind word
      rw [List.mem_append, not_or] at single
      rw [mapWords_append_of_isWord image isWord closes, behind, List.mem_append,
        List.mem_append, not_or, not_or]
      exact ⟨⟨single.1, endingSingle⟩, ih single.2⟩

/-- A line that opens a block still opens one. -/
theorem opensBlock_mapWords (extended : Extends image) {body : Text}
    (opens : opensBlock body = true) : opensBlock (mapWords image body) = true := by
  simp only [opensBlock, continuesBranch, Bool.or_eq_true, decide_eq_true_eq,
    List.isPrefixOf_iff_prefix] at opens ⊢
  rcases opens with colon | ⟨rest, rfl⟩ | ⟨rest, rfl⟩
  · obtain ⟨front, rfl⟩ := List.getLast?_eq_some_iff.1 colon
    rw [mapWords_append_cons image (by decide)]
    simp
  · refine .inr (.inl ⟨mapWords image rest, ?_⟩)
    have word : IsWord "elif".toList := ⟨by decide, by decide⟩
    have closes : closesWord (' ' :: rest) = true := closesWord_cons (by decide)
    have mapped := mapWords_append_of_isWord image word closes
    rw [mapWords_cons_of_outside image (by decide), extended.elif] at mapped
    exact mapped.symm
  · refine .inr (.inr ⟨mapWords image rest, ?_⟩)
    have word : IsWord "else".toList := ⟨by decide, by decide⟩
    have closes : closesWord (':' :: rest) = true := closesWord_cons (by decide)
    have mapped := mapWords_append_of_isWord image word closes
    rw [mapWords_cons_of_outside image (by decide), extended.otherwise] at mapped
    exact mapped.symm

theorem mapWords_atDepth (image : Text → Text) (depth : Nat) (body : Text) :
    mapWords image (atDepth depth body) = atDepth depth (mapWords image body) :=
  mapWords_append_of_blank image (allBlank_replicate_space (4 * depth)) body

theorem stepped (extended : Extends image) {limit : Nat} {lines : List Text}
    (stepped : Stepped limit lines) : Stepped limit (lines.map (mapWords image)) := by
  induction stepped with
  | nil => exact .nil
  | blank _ ih =>
      rw [List.map_cons, mapWords_nil]
      exact .blank ih
  | @line limit depth body rest le nonempty starts ends _ ih =>
      have grows : (opensBlock body).toNat ≤ (opensBlock (mapWords image body)).toNat := by
        cases opens : opensBlock body with
        | false => exact Nat.zero_le _
        | true => exact Nat.le_of_eq (by rw [extended.opensBlock_mapWords opens])
      rw [List.map_cons, mapWords_atDepth]
      refine .line le (extended.mapWords_ne_nil nonempty) ?_ (extended.endsSolid_mapWords ends)
        (ih.mono (by omega))
      intro char first
      exact starts char (extended.head?_mapWords body ▸ first)

end Extends

/-! ## From the layout pass to the output -/

theorem stepped_lines_unlines {texts : List Text} (single : ∀ text ∈ texts, '\n' ∉ text)
    (stepped : Stepped 0 texts) : Stepped 0 (lines (unlines texts)) := by
  cases texts with
  | nil => exact .blank .nil
  | cons text rest => rwa [lines_unlines (by simp) single]

theorem stepped_convertLayout (text : Text) : Stepped 0 (lines (convertLayout text).text) := by
  exact stepped_lines_unlines (newline_notMem_layout_lines text)
    (Layout.stepped_ofLinesFrom (lines text) (Nat.le_refl 0) 1)

/-- A variable is renamed on each line by itself. -/
theorem lines_rename {name : Text} (builtin : name ∈ builtinNames.map String.toList)
    (text : Text) : lines (rename text name) = (lines text).map (mapWords (renamedWord name)) := by
  have joined : rename text name = unlines ((lines text).map (mapWords (renamedWord name))) := by
    rw [rename_eq_mapWords (isWord_of_mem_builtinNames builtin), ← mapWords_unlines, unlines_lines]
  rw [joined]
  apply lines_unlines
  · simp [lines_ne_nil]
  · intro mapped member
    obtain ⟨line, inLines, rfl⟩ := List.mem_map.1 member
    exact (extends_renamedWord builtin).newline_notMem_mapWords
      (newline_notMem_of_mem_lines inLines)

theorem stepped_rename {text name : Text} (builtin : name ∈ builtinNames.map String.toList)
    (stepped : Stepped 0 (lines text)) : Stepped 0 (lines (rename text name)) := by
  rw [lines_rename builtin]
  exact (extends_renamedWord builtin).stepped stepped

/-- What renaming keeps, one variable after the other, is kept by the pass. -/
theorem convertNames_induction {motive : Text → Prop} {text : Text} (start : motive text)
    (step : ∀ text, ∀ name ∈ builtinNames.map String.toList, motive text →
      motive (rename text name)) : motive (convertNames text).text := by
  have builtin : ∀ name ∈ hiddenBuiltins text, name ∈ builtinNames.map String.toList :=
    fun name member => (List.mem_filter.1 member).1
  rw [convertNames]
  generalize hiddenBuiltins text = names at builtin
  induction names generalizing text with
  | nil => exact start
  | cons name names ih =>
      exact ih (step text name (builtin name List.mem_cons_self) start)
        fun other member => builtin other (List.mem_cons_of_mem _ member)

theorem stepped_convertNames {text : Text} (stepped : Stepped 0 (lines text)) :
    Stepped 0 (lines (convertNames text).text) :=
  convertNames_induction (motive := fun text => Stepped 0 (lines text)) stepped
    fun _ _ builtin => stepped_rename builtin

/-- Lines end in empty ones, behind a last one that is not empty. -/
theorem exists_append_nil (texts : List Text) :
    ∃ core back, texts = core ++ back ∧ (∀ text ∈ back, AllBlank text) ∧
      ∀ last, core.getLast? = some last → last ≠ [] := by
  induction texts with
  | nil => exact ⟨[], [], rfl, by simp, by simp⟩
  | cons text texts ih =>
      obtain ⟨core, back, rfl, blank, filled⟩ := ih
      cases core with
      | nil =>
          by_cases empty : text = []
          · refine ⟨[], text :: back, rfl, ?_, by simp⟩
            intro other member
            rcases List.mem_cons.1 member with rfl | member
            · exact empty ▸ allBlank_nil
            · exact blank other member
          · refine ⟨[text], back, rfl, blank, ?_⟩
            intro last isLast
            cases isLast
            exact empty
      | cons first core => exact ⟨text :: first :: core, back, rfl, blank, by simpa using filled⟩

/-- Lines are blank ones around others, of which the first and the last are not empty. -/
theorem exists_filled_core (texts : List Text) :
    ∃ front core back, texts = front ++ core ++ back ∧ (∀ text ∈ front, AllBlank text) ∧
      (∀ text ∈ back, AllBlank text) ∧ (∀ first, core.head? = some first → first ≠ []) ∧
      ∀ last, core.getLast? = some last → last ≠ [] := by
  rcases exists_append_nil (texts.dropWhile (· = [])) with ⟨core, back, split, backBlank, filled⟩
  refine ⟨texts.takeWhile (· = []), core, back, ?_, ?_, backBlank, ?_, filled⟩
  · rw [List.append_assoc, ← split, List.takeWhile_append_dropWhile]
  · intro text member
    rw [of_decide_eq_true (List.all_eq_true.1 List.all_takeWhile text member)]
    exact allBlank_nil
  · intro first isFirst
    have stops := List.head?_dropWhile_not (fun text : Text => decide (text = [])) texts
    rw [split, List.head?_append, isFirst] at stops
    simpa using stops

namespace Stepped

theorem startsSolid {first : Text} {core : List Text} (stepped : Stepped 0 (first :: core))
    (filled : first ≠ []) : StartsSolid (unlines (first :: core)) := by
  have different : first :: core ≠ [[]] := by simp [filled]
  rcases (stepped.legalLayout filled).flush different with ⟨body, rest, whole, flush⟩
  rw [(List.cons.inj whole).1]
  exact startsSolid_unlines flush.nonempty flush.startsSolid core

theorem endsSolid {limit : Nat} {core : List Text} (stepped : Stepped limit core)
    (filled : ∀ last, core.getLast? = some last → last ≠ []) : EndsSolid (unlines core) := by
  rcases List.eq_nil_or_concat core with rfl | ⟨start, last, rfl⟩
  · exact endsSolid_nil
  · rw [List.concat_eq_append] at stepped filled ⊢
    have lastFilled : last ≠ [] := filled last List.getLast?_concat
    have member : last ∈ start ++ [last] := List.mem_append_right start List.mem_cons_self
    rcases stepped.exists_setAt member lastFilled with ⟨_, _, set, ends⟩
    exact endsSolid_unlines lastFilled (set.endsSolid ends) start

/-- Trimming stepped lines leaves a legal layout. -/
theorem trim {text : Text} (stepped : Stepped 0 (lines text)) :
    LegalLayout (lines (trim text)) ∧
      Offside.acceptsIndentation [] false (lines (trim text)) = true := by
  rcases exists_filled_core (lines text) with
    ⟨front, core, back, split, frontBlank, backBlank, firstFilled, lastFilled⟩
  rw [split, List.append_assoc] at stepped
  have coreStepped : Stepped 0 core := (of_append_blank frontBlank stepped).of_append
  rw [← unlines_lines text, split]
  cases core with
  | nil =>
      have nothing : ∀ line ∈ front ++ [] ++ back, AllBlank line := by
        intro line member
        rw [List.append_nil, List.mem_append] at member
        exact member.elim (frontBlank line) (backBlank line)
      rw [trim_unlines_of_blank nothing]
      exact ⟨legalLayout_nil, rfl⟩
  | cons first core =>
      have filled : first ≠ [] := firstFilled first rfl
      have nonempty : first :: core ≠ [] := List.cons_ne_nil first core
      have single : ∀ line ∈ first :: core, '\n' ∉ line := by
        intro line member
        have inText : line ∈ lines text := by
          rw [split]
          exact List.mem_append_left _ (List.mem_append_right _ member)
        exact newline_notMem_of_mem_lines inText
      have accepted : Offside.acceptsIndentation (levelsTo 0) false (first :: core) = true :=
        coreStepped.acceptsIndentation
      rw [trim_unlines frontBlank backBlank nonempty (coreStepped.startsSolid filled)
        (coreStepped.endsSolid lastFilled), lines_unlines nonempty single]
      exact ⟨coreStepped.legalLayout filled, accepted⟩

end Stepped

/-- Every output has a legal layout, and keeping track of its open levels never fails. -/
theorem legalLayout_toPython (snippet : String) :
    LegalLayout (lines (toPython snippet).toList) ∧
      acceptsIndentation [] false (lines (toPython snippet).toList) = true := by
  rw [toPython, String.toList_ofList, Rendition.text_ofSnippet]
  exact (stepped_convertNames (stepped_convertLayout _)).trim

end Offside
