import Offside.Proofs.Layout.Recovery

/-!
# Loose blocks inside blocks

A closing line does not say which block it ends. It is taken for the end of the innermost block
that a header has opened, as long as there is one, and only then for the end of a loose block. So a
loose block inside another block takes a level away from the lines behind it, up to the end of the
outermost block around them. This module says where the lines of nested blocks are set, and in
which nestings that is where they belong.
-/

namespace Offside

/-- Nested blocks without branches. A block is opened by a header, and a loose block by a phrase
that opens nothing. -/
inductive Nest where
  | empty
  | statement (phrase : PlainPhrase) (rest : Nest)
  | block (header : HeaderPhrase) (brace : Bool) (body rest : Nest)
  | loose (opener : PlainPhrase) (body rest : Nest)

namespace Nest

/-- The forest of nested blocks. -/
def forest : Nest → Forest
  | empty => .empty
  | statement phrase rest => .statement phrase rest.forest
  | block header brace body rest => .block header brace body.forest .close rest.forest
  | loose opener body rest => .loose (some opener) body.forest rest.forest

/-- The lines in braces, without indentation. -/
def source (nest : Nest) : List Text :=
  nest.forest.source

/-- The lines without braces, each at the depth of the blocks around it that a header has opened. -/
def layout (depth : Nat) (nest : Nest) : List Text :=
  nest.forest.layout depth

/-- Number of loose blocks. -/
def looseBlocks : Nest → Nat
  | empty => 0
  | statement _ rest => rest.looseBlocks
  | block _ _ body rest => body.looseBlocks + rest.looseBlocks
  | loose _ body rest => body.looseBlocks + 1 + rest.looseBlocks

/-- The lines without braces, where every loose block that ends takes a level away, as long as there
is one. -/
def drift : (depth : Nat) → Nest → List Text
  | _, empty => []
  | depth, statement phrase rest => atDepth depth phrase.text :: rest.drift depth
  | depth, block header _ body rest =>
      atDepth depth header.text ::
        (body.drift (depth + 1) ++ rest.drift (depth - body.looseBlocks))
  | depth, loose opener body rest =>
      atDepth depth opener.text ::
        (body.drift depth ++ rest.drift (depth - (body.looseBlocks + 1)))

/-- Whether there is no line. -/
def isEmpty : Nest → Bool
  | empty => true
  | _ => false

/-- Whether no line stands behind the end of a loose block. -/
def endsLoose : Nest → Bool
  | empty => true
  | statement _ rest => rest.endsLoose
  | block _ _ body rest =>
      body.endsLoose && (body.looseBlocks = 0 || rest.isEmpty) && rest.endsLoose
  | loose _ body rest => body.endsLoose && rest.isEmpty

/-- Whether no line inside an outermost block stands behind the end of a loose block in it. -/
def isUndisturbed : Nest → Bool
  | empty => true
  | statement _ rest => rest.isUndisturbed
  | block _ _ body rest => body.endsLoose && rest.isUndisturbed
  | loose _ body rest => body.isUndisturbed && rest.isUndisturbed

end Nest

/-! ## Where the lines are set -/

/-- What is open when so many loose blocks have ended in place of blocks, as long as there were any.
The braces that should have been closed are still open. -/
def Margin.drained (margin : Margin) (count : Nat) : Margin where
  depth := margin.depth - count
  loose := margin.loose + min margin.depth count

theorem Margin.drained_zero (margin : Margin) : margin.drained 0 = margin := by
  simp [Margin.drained]

theorem Margin.drained_drained (margin : Margin) (first second : Nat) :
    (margin.drained first).drained second = margin.drained (first + second) := by
  simp only [Margin.drained, Margin.mk.injEq]
  omega

namespace Layout.Sets

variable {texts lines : List Text} {behind : Margin}

/-- A closing line ends a block if one is open, and else a loose block. -/
theorem closing_of_unclosed {here next : Margin} (shallower : next.depth = here.depth - 1)
    (fewer : next.depth + next.loose + 1 = here.depth + here.loose)
    (others : Layout.Sets next texts lines behind) :
    Layout.Sets here (closingLine :: texts) lines behind := by
  obtain ⟨depth, loose⟩ := here
  obtain ⟨nextDepth, nextLoose⟩ := next
  simp only at shallower fewer
  cases depth with
  | zero =>
      obtain rfl : nextDepth = 0 := shallower
      obtain rfl : loose = nextLoose + 1 := by omega
      exact others.closing_loose
  | succ depth =>
      obtain rfl : nextDepth = depth := shallower
      obtain rfl : loose = nextLoose := by omega
      exact others.closing

variable {depth loose count : Nat}

/-- The closing line of a block in which loose blocks have ended. -/
theorem closing_drained
    (others : Layout.Sets (Margin.drained { depth, loose } count) texts lines behind) :
    Layout.Sets (Margin.drained { depth := depth + 1, loose } count) (closingLine :: texts) lines
      behind := by
  apply others.closing_of_unclosed
  all_goals
    simp only [Margin.drained]
    omega

/-- The closing line of a loose block is one more that ends in place of a block. -/
theorem closing_drained_loose
    (others : Layout.Sets (Margin.drained { depth, loose } (count + 1)) texts lines behind) :
    Layout.Sets (Margin.drained { depth, loose := loose + 1 } count) (closingLine :: texts) lines
      behind := by
  apply others.closing_of_unclosed
  all_goals
    simp only [Margin.drained]
    omega

end Layout.Sets

/-- The lines of nested blocks drift by the loose blocks among them, from any margin on. -/
theorem Nest.sets (nest : Nest) (margin : Margin) :
    Layout.Sets margin nest.source (nest.drift margin.depth) (margin.drained nest.looseBlocks) := by
  induction nest generalizing margin with
  | empty =>
      rw [looseBlocks, margin.drained_zero]
      exact Layout.Sets.nil
  | statement phrase rest restSets => exact (restSets margin).plain phrase
  | block header brace body rest bodySets restSets =>
      obtain ⟨depth, loose⟩ := margin
      have bodySet := bodySets { depth := depth + 1, loose }
      have restSet := restSets (Margin.drained { depth, loose } body.looseBlocks)
      rw [Margin.drained_drained] at restSet
      exact (bodySet.append restSet.closing_drained).header header brace
  | loose opener body rest bodySets restSets =>
      obtain ⟨depth, loose⟩ := margin
      have bodySet := bodySets { depth, loose := loose + 1 }
      have restSet := restSets (Margin.drained { depth, loose } (body.looseBlocks + 1))
      rw [Margin.drained_drained] at restSet
      refine Layout.Sets.cons (LineShape.ofLine_opener (some opener)) rfl ?_
        (bodySet.append restSet.closing_drained_loose)
      simp [Margin.set?, indented_eq_atDepth]

/-! ## Where the lines belong -/

theorem atDepth_ne {depth other : Nat} (different : depth ≠ other) (text : Text) :
    atDepth depth text ≠ atDepth other text := by
  intro same
  have lengths := congrArg List.length same
  simp only [atDepth, List.length_append, List.length_replicate] at lengths
  omega

namespace Nest

section Layout

variable (depth : Nat) (header : HeaderPhrase) (brace : Bool) (phrase opener : PlainPhrase)
  (body rest : Nest)

@[simp] theorem layout_empty : empty.layout depth = [] := rfl

@[simp] theorem layout_statement :
    (statement phrase rest).layout depth = atDepth depth phrase.text :: rest.layout depth := rfl

@[simp] theorem layout_block :
    (block header brace body rest).layout depth =
      atDepth depth header.text :: (body.layout (depth + 1) ++ rest.layout depth) := rfl

@[simp] theorem layout_loose :
    (loose opener body rest).layout depth =
      atDepth depth opener.text :: (body.layout depth ++ rest.layout depth) := rfl

end Layout

theorem length_drift (nest : Nest) (depth other : Nat) :
    (nest.drift depth).length = (nest.layout other).length := by
  induction nest generalizing depth other with
  | empty => rfl
  | statement phrase rest ih => simp [drift, ih depth other]
  | block header brace body rest bodyLength restLength =>
      simp [drift, bodyLength (depth + 1) (other + 1), restLength _ other]
  | loose opener body rest bodyLength restLength =>
      simp [drift, bodyLength depth other, restLength _ other]

/-- At another depth the first line is another one. -/
theorem drift_eq_layout_iff_isEmpty {depth other : Nat} (different : depth ≠ other) (nest : Nest) :
    nest.drift depth = nest.layout other ↔ nest.isEmpty = true := by
  cases nest <;> simp [drift, isEmpty, atDepth_ne different]

/-- The lines of a body and those behind it are set as they belong if both of them are. -/
theorem append_drift_eq_iff (body rest : Nest) (inner outer depth : Nat) :
    body.drift inner ++ rest.drift outer = body.layout inner ++ rest.layout depth ↔
      body.drift inner = body.layout inner ∧ rest.drift outer = rest.layout depth := by
  constructor
  · intro same
    exact List.append_inj same (body.length_drift inner inner)
  · rintro ⟨sameBody, sameRest⟩
    rw [sameBody, sameRest]

/-- Inside a block the lines are where they belong if none stands behind a loose block. -/
theorem drift_eq_layout_iff_endsLoose (nest : Nest) {depth : Nat} (inside : 0 < depth) :
    nest.drift depth = nest.layout depth ↔ nest.endsLoose = true := by
  induction nest generalizing depth with
  | empty => simp [drift, endsLoose]
  | statement phrase rest ih => simp [drift, endsLoose, ih inside]
  | block header brace body rest bodyIff restIff =>
      rw [drift, layout_block, List.cons.injEq, append_drift_eq_iff, bodyIff (Nat.succ_pos depth)]
      by_cases none : body.looseBlocks = 0
      · simp [endsLoose, none, restIff inside]
      · rw [drift_eq_layout_iff_isEmpty (by omega)]
        cases rest <;> simp [endsLoose, none, isEmpty]
  | loose opener body rest bodyIff restIff =>
      rw [drift, layout_loose, List.cons.injEq, append_drift_eq_iff, bodyIff inside,
        drift_eq_layout_iff_isEmpty (by omega)]
      simp [endsLoose]

theorem drift_eq_layout_iff_isUndisturbed (nest : Nest) :
    nest.drift 0 = nest.layout 0 ↔ nest.isUndisturbed = true := by
  induction nest with
  | empty => simp [drift, isUndisturbed]
  | statement phrase rest ih => simp [drift, isUndisturbed, ih]
  | block header brace body rest bodyIff restIff =>
      rw [drift, layout_block, List.cons.injEq, append_drift_eq_iff, Nat.zero_sub, restIff,
        drift_eq_layout_iff_endsLoose body Nat.one_pos]
      simp [isUndisturbed]
  | loose opener body rest bodyIff restIff =>
      rw [drift, layout_loose, List.cons.injEq, append_drift_eq_iff, Nat.zero_sub, bodyIff, restIff]
      simp [isUndisturbed]

/-- The lines of nested blocks, behind any indentation, are set as they drift, without a remark.
They are set at the depths of the blocks around them exactly if no line inside an outermost block
stands behind the end of a loose block in it. -/
theorem ofLines_drift (nest : Nest) {lines : List Text}
    (indentation : IndentedLines isBlank lines nest.source) :
    Layout.ofLines lines = { lines := nest.drift 0, remarks := [] } ∧
      ((Layout.ofLines lines).lines = nest.layout 0 ↔ nest.isUndisturbed = true) := by
  have set : Layout.ofLines lines = { lines := nest.drift 0, remarks := [] } :=
    (nest.sets {}).ofLines_eq indentation
  rw [set]
  exact ⟨rfl, nest.drift_eq_layout_iff_isUndisturbed⟩

/-- A loose block in a loop, and what stands behind it in the loop. -/
def sampleLoop (behind : Nest) : Nest :=
  .block ⟨⟨"for k in r:".toList, by decide, by decide, by decide, by decide⟩,
      by decide, by decide⟩ true
    (.loose ⟨⟨"while (busy)".toList, by decide, by decide, by decide, by decide⟩,
        by decide, by decide⟩
      (.statement ⟨⟨"wait()".toList, by decide, by decide, by decide, by decide⟩,
        by decide, by decide⟩ .empty)
      behind)
    .empty

/-- One more line of the loop. -/
def sampleLine : Nest :=
  .statement ⟨⟨"k = 0".toList, by decide, by decide, by decide, by decide⟩,
    by decide, by decide⟩ .empty

theorem ofLines_drift_sampleLoop :
    let lines := ["for k in r: \x7b".toList, "  while (busy) \x7b".toList, "\twait()".toList,
      "  \x7d".toList, "\x7d".toList]
    IndentedLines isBlank lines (sampleLoop .empty).source ∧
      (sampleLoop .empty).isUndisturbed = true ∧
      Layout.ofLines lines =
        { lines := ["for k in r:".toList, "    while (busy)".toList, "    wait()".toList]
          remarks := [] } := by
  intro lines
  have indentation : IndentedLines isBlank lines (sampleLoop .empty).source :=
    .cons [] _ (by decide) <| .cons "  ".toList _ (by decide) <| .cons "\t".toList _ (by decide) <|
    .cons "  ".toList _ (by decide) <| .cons [] _ (by decide) .nil
  exact ⟨indentation, rfl, (ofLines_drift (sampleLoop .empty) indentation).1⟩

/-- The last line of the loop stands behind the end of the loose block, and is set outside the
loop. -/
theorem ofLines_drift_behindLoose :
    let lines := ["for k in r: \x7b".toList, "while (busy) \x7b".toList, "wait()".toList,
      "\x7d".toList, "k = 0".toList, "\x7d".toList]
    lines = (sampleLoop sampleLine).source ∧
      (sampleLoop sampleLine).layout 0 = ["for k in r:".toList, "    while (busy)".toList,
        "    wait()".toList, "    k = 0".toList] ∧
      Layout.ofLines lines =
        { lines := ["for k in r:".toList, "    while (busy)".toList, "    wait()".toList,
            "k = 0".toList]
          remarks := [] } := by
  decide

end Nest

end Offside
