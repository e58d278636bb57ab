import Offside.Proofs.Branching.Syntax

/-!
# Conversion of branch chains

The three passes over branch headers take one closing brace for each further branch of a chain,
and leave the one that ends the chain. What they leave behind is one line for each item, which
the layout sets at the depth of its branch. Each pass converts the items whose turn it is, and
what it relies upon is that no item starts with an `else`.
-/

namespace Offside

/-! ## Indented lines -/

section Lines

variable {lines texts : List Text}

theorem IndentedLines.mono {narrow wide : Char → Bool}
    (weaker : ∀ {char : Char}, narrow char = true → wide char = true)
    (indentation : IndentedLines narrow lines texts) : IndentedLines wide lines texts := by
  induction indentation with
  | nil => exact .nil
  | cons indent text isIndent _ ih =>
      exact .cons indent text (fun char member => weaker (isIndent char member)) ih

theorem IndentedLines.newline_notMem (indentation : IndentedLines isTabOrSpace lines texts)
    (single : ∀ text ∈ texts, '\n' ∉ text) : ∀ line ∈ lines, '\n' ∉ line := by
  induction indentation with
  | nil => exact nofun
  | cons indent text isGap _ ih =>
      obtain ⟨textSingle, othersSingle⟩ := List.forall_mem_cons.1 single
      refine List.forall_mem_cons.2 ⟨?_, ih othersSingle⟩
      rw [List.mem_append, not_or]
      exact ⟨IsGap.newline_notMem isGap, textSingle⟩

/-- A text of indented lines is set as its lines are. -/
theorem Layout.Sets.convertLayout_unlines {setLines : List Text} {behind : Margin}
    (sets : Layout.Sets {} texts setLines behind)
    (indentation : IndentedLines isTabOrSpace lines texts)
    (single : ∀ text ∈ texts, '\n' ∉ text) :
    convertLayout (unlines lines) = { text := unlines setLines } := by
  have set := sets.ofLines_eq (indentation.mono isBlank_of_isTabOrSpace)
  by_cases empty : lines = []
  · -- Without any lines there still is an empty one to cut.
    subst empty
    have noLines : setLines = [] := (congrArg Layout.lines set).symm
    rw [noLines]
    rfl
  · rw [convertLayout, lines_unlines empty (indentation.newline_notMem single), set]

end Lines

/-! ## Passes over indented items -/

section Items

variable {ι : Type} {source : ι → Text} {items : List ι} {chunks : List Text}

theorem IndentedLines.exists_listing {isIndent : Char → Bool}
    (indentation : IndentedLines isIndent chunks (items.map source)) :
    ∃ listing : List (Text × ι),
      chunks = listing.map (fun placed => placed.1 ++ source placed.2) ∧
      (∀ placed ∈ listing, ∀ char ∈ placed.1, isIndent char = true) ∧
      ∀ target : ι → Text, IndentedLines isIndent
        (listing.map fun placed => placed.1 ++ target placed.2) (items.map target) := by
  induction items generalizing chunks with
  | nil =>
      cases indentation
      exact ⟨[], rfl, nofun, fun _ => .nil⟩
  | cons item items ih =>
      cases indentation with
      | cons indent _ isIndent others =>
          obtain ⟨listing, rfl, indented, retargeted⟩ := ih others
          exact ⟨(indent, item) :: listing, rfl, List.forall_mem_cons.2 ⟨isIndent, indented⟩,
            fun target => .cons indent _ isIndent (retargeted target)⟩

/-- A pass that settles every item leaves the items behind the same indentation. -/
theorem IndentedLines.exists_settles {α : Type} {recognizer : Recognizer α} {judge : α → Verdict}
    {target : ι → Text} (indentation : IndentedLines isTabOrSpace chunks (items.map source))
    (Behind : Text → Prop) (visible : recognizer.StartsVisibly) (atEnd : Behind [])
    (atItem : ∀ (item : ι) (indent rest : Text), AllBlank indent → Behind rest →
      Behind ('\n' :: (indent ++ source item ++ rest)))
    (each : ∀ (item : ι) (before : Option Char) (rest : Text), opensWord before = true →
      Behind rest → recognizer.Settles judge rest before (source item) (target item)) :
    ∃ converted, IndentedLines isTabOrSpace converted (items.map target) ∧
      recognizer.Settles judge [] none (unlines chunks) (unlines converted) := by
  obtain ⟨listing, rfl, indented, retargeted⟩ := indentation.exists_listing
  have blank : ∀ placed ∈ listing, AllBlank placed.1 := fun placed member char inIndent =>
    isBlank_of_isTabOrSpace (indented placed member char inIndent)
  refine ⟨_, retargeted target, ?_⟩
  apply Recognizer.settles_unlines Behind visible blank atEnd
  · intro placed member rest behind
    exact atItem placed.2 placed.1 rest (blank placed member) behind
  · intro placed _
    exact each placed.2
  · rfl

end Items

/-! ## Items on their way -/

namespace BranchItem

/-- The pass that converts an item, if one does. -/
def turn : BranchItem → Nat
  | chained _ => 0
  | opening _ => 1
  | otherwise _ => 2
  | statement _ | close => 0

/-- An item in front of a pass. -/
def textAt (stage : Nat) (item : BranchItem) : Text :=
  if stage ≤ item.turn then item.source else item.target

variable (item : BranchItem)

theorem textAt_three : item.textAt 3 = item.target := by
  cases item <;> rfl

theorem startsSolid_textAt (stage : Nat) : StartsSolid (item.textAt stage) := by
  have starts : StartsSolid item.source ∧ StartsSolid item.target := by
    cases item with
    | statement line =>
        have solid := (trim_eq_self_iff.1 line.trimmed).1
        exact ⟨solid, solid⟩
    | opening | chained | otherwise | close =>
        exact ⟨startsSolid_of_head? rfl (by decide), startsSolid_of_head? rfl (by decide)⟩
  unfold textAt
  split
  · exact starts.1
  · exact starts.2

/-- Up to the last pass, an `else` has a brace in front of it. -/
theorem not_else_isPrefix_textAt {stage : Nat} (early : stage ≤ 2) :
    ¬"else".toList <+: item.textAt stage := by
  have source : ¬"else".toList <+: item.source := by
    cases item with
    | statement line => exact fun starts => line.noElse starts.isInfix
    | opening | chained | otherwise | close => exact nofun
  unfold textAt
  split
  · exact source
  · next past =>
      cases item with
      | statement line => exact source
      | opening header | chained header =>
          exact fun starts => header.condition.noElse_header (by decide) starts.isInfix
      | otherwise => exact absurd early past
      | close => exact source

end BranchItem

/-! ## Passes -/

/-- Nothing of an `else` stands on a line without closing braces and the keyword. -/
theorem not_isInfix_of_mem_elseOpenings {text : Text} (noBrace : '\x7d' ∉ text)
    (noElse : ¬"else".toList <:+: text) : ∀ opening ∈ elseOpenings, ¬opening <:+: text := by
  intro opening member
  rcases List.mem_cons.1 member with rfl | member
  · exact not_isInfix_of_notMem List.mem_cons_self noBrace
  · rwa [List.mem_singleton.1 member]

namespace InertText

variable (text : InertText) {keyword : Text}

theorem lacks_elseOpenings : ∀ opening ∈ elseOpenings, ¬opening <:+: text.text :=
  not_isInfix_of_mem_elseOpenings text.braceFree.closing text.noElse

theorem header_lacks_elseOpenings (free : '\x7d' ∉ keyword)
    (noElse : ¬"else".toList <:+: keyword) :
    ∀ opening ∈ elseOpenings, ¬opening <:+: text.header keyword :=
  not_isInfix_of_mem_elseOpenings
    (text.notMem_header (by decide) free text.braceFree.closing) (text.noElse_header noElse)

end InertText

theorem BranchHeader.lacks_elseOpenings (header : BranchHeader) :
    ∀ opening ∈ elseOpenings, ¬opening <:+: "if".toList ++ header.tail := by
  have noLetter : ∀ blanks : Blanks, 'e' ∉ blanks.text := fun blanks => blanks.notMem (by decide)
  have noBrace : ∀ blanks : Blanks, '\x7d' ∉ blanks.text := fun blanks => blanks.notMem (by decide)
  have shape : "if".toList ++ header.tail = ("if".toList ++ header.toParen.text) ++
      '(' :: (header.condition.text ++ ')' :: (header.toBrace.text ++ "\x7b".toList)) :=
    (List.append_assoc _ _ _).symm
  rw [shape]
  apply not_isInfix_of_mem_elseOpenings
  · simp [noBrace, header.condition.braceFree.closing]
  · -- The blanks hold no letter, and the keyword does not reach across a parenthesis.
    apply not_isInfix_append_cons (by decide)
    · exact not_isInfix_of_notMem (List.mem_cons_self (a := 'e')) (by simp [noLetter])
    · apply not_isInfix_append_cons (by decide) header.condition.noElse
      exact not_isInfix_of_notMem (List.mem_cons_self (a := 'e')) (by simp [noLetter])

namespace BranchItem

variable (item : BranchItem) {before : Option Char} {rest : Text}

theorem elseIfHeader_settles (behind : NoElseBehind rest) :
    elseIfHeader.Settles
      (fun condition => .replace ("elif ".toList ++ condition ++ ":".toList)) rest before
      (item.textAt 0) (item.textAt 1) := by
  cases item with
  | chained header =>
      exact Offside.elseIfHeader_settles header.toParen.blank header.condition.single
        header.condition.braceFree.opening header.toBrace.blank header.toElse.blank header.apart
        header.toIf.blank before
  | otherwise header =>
      exact elseIfHeader_settles_else header.toElse.blank header.toBrace.blank before
  | close => exact elseIfHeader_settles_close behind
  | statement line =>
      exact elseIfHeader_opensWith.settles (by decide) line.lacks_elseOpenings behind.1
  | opening header =>
      exact elseIfHeader_opensWith.settles (by decide) header.lacks_elseOpenings behind.1

theorem ifHeader_settles (opens : opensWord before = true) (closes : ClosesLine rest) :
    ifHeader.Settles
      (fun condition => .replace ("if ".toList ++ condition ++ ":".toList)) rest before
      (item.textAt 1) (item.textAt 2) := by
  have silent : ∀ {text : Text}, ¬"if".toList <:+: text → ifHeader.Settles
      (fun condition => .replace ("if ".toList ++ condition ++ ":".toList)) rest before
      text text := by
    intro text noIf
    apply ifHeader_opensWith.settles (by decide) _ closes
    intro opening member
    rwa [List.mem_singleton.1 member]
  cases item with
  | opening header =>
      exact Offside.ifHeader_settles header.toParen.blank header.condition.single
        header.condition.braceFree.opening header.toBrace.blank opens
  | chained header =>
      have noIf : ¬"if".toList <:+: [] ++ ' ' :: (header.condition.text ++ ':' :: []) := by
        apply not_isInfix_append_cons (by decide) (by decide)
        exact not_isInfix_append_cons (by decide) header.condition.noIf (by decide)
      exact ifHeader_settles_elif noIf closes before
  | otherwise header =>
      have noLetter : ∀ blanks : Blanks, 'i' ∉ blanks.text := fun blanks =>
        blanks.notMem (by decide)
      have noKeyword : 'i' ∉ source (.otherwise header) := by simp [source, noLetter]
      exact silent (not_isInfix_of_notMem List.mem_cons_self noKeyword)
  | statement line => exact silent line.noIf
  | close => exact silent (by decide)

theorem elseHeader_settles (behind : NoElseBehind rest) :
    elseHeader.Settles (fun _ => .replace "else:".toList) rest before (item.textAt 2)
      (item.textAt 3) := by
  cases item with
  | otherwise header =>
      exact Offside.elseHeader_settles header.toElse.blank header.toBrace.blank before
  | close => exact elseHeader_settles_close behind
  | statement line =>
      exact elseHeader_opensWith.settles (by decide) line.lacks_elseOpenings behind.1
  | opening header | chained header =>
      exact elseHeader_opensWith.settles (by decide)
        (header.condition.header_lacks_elseOpenings (by decide) (by decide)) behind.1

/-- A pass that converts every item in its turn converts the indented items. -/
theorem exists_replaceAll {α : Type} {recognizer : Recognizer α} {openings : List Text}
    (opens : recognizer.OpensWith openings)
    (visible : ∀ opening ∈ openings, opening.head?.any (fun char => !isBlank char) = true)
    {stage : Nat} (early : stage ≤ 2) {replacement : α → Text}
    (each : ∀ (item : BranchItem) (before : Option Char) (rest : Text),
      opensWord before = true → NoElseBehind rest →
        recognizer.Settles (fun value => .replace (replacement value)) rest before
          (item.textAt stage) (item.textAt (stage + 1)))
    {items : List BranchItem} {chunks : List Text}
    (indentation : IndentedLines isTabOrSpace chunks (items.map (textAt stage))) :
    ∃ converted, IndentedLines isTabOrSpace converted (items.map (textAt (stage + 1))) ∧
      recognizer.replaceAll replacement (unlines chunks) = unlines converted := by
  have nonempty : ∀ opening ∈ openings, opening ≠ [] := by
    rintro opening member rfl
    cases visible [] member
  have startsVisibly := opens.startsVisibly visible
  obtain ⟨converted, convertedIndentation, settles⟩ := indentation.exists_settles NoElseBehind
    startsVisibly noElseBehind_nil
    (fun item _ _ blank behind => behind.newline_append blank (item.startsSolid_textAt stage)
      (item.not_else_isPrefix_textAt early)) each
  exact ⟨converted, convertedIndentation, settles.replaceAll (opens.proper nonempty)⟩

/-- The passes over the headers leave one line for each item. -/
theorem exists_convertBranches {items : List BranchItem} {chunks : List Text}
    (indentation : IndentedLines isTabOrSpace chunks (items.map source)) :
    ∃ converted, IndentedLines isTabOrSpace converted (items.map target) ∧
      convertBranches (unlines chunks) = unlines converted := by
  obtain ⟨chained, chainedIndentation, elseIfs⟩ := exists_replaceAll
    elseIfHeader_opensWith (by decide) (by decide)
    (fun item _ _ _ => item.elseIfHeader_settles) indentation
  obtain ⟨opened, openedIndentation, ifs⟩ := exists_replaceAll ifHeader_opensWith (by decide)
    (by decide) (fun item _ _ opens behind => item.ifHeader_settles opens behind.1)
    chainedIndentation
  obtain ⟨converted, convertedIndentation, elses⟩ := exists_replaceAll elseHeader_opensWith
    (by decide) (by decide) (fun item _ _ _ => item.elseHeader_settles) openedIndentation
  rw [funext textAt_three] at convertedIndentation
  refine ⟨converted, convertedIndentation, ?_⟩
  rw [convertBranches, elseIfs, ifs, elses]

theorem newline_notMem_target (item : BranchItem) : '\n' ∉ item.target := by
  cases item with
  | statement line => exact line.single
  | opening header | chained header => exact header.condition.newline_notMem_header (by decide)
  | otherwise =>
      have single : '\n' ∉ elseText := by decide
      exact single
  | close => decide

end BranchItem

/-! ## Layout -/

/-- A line without braces that ends in a colon opens a block, or goes on with a branch. -/
theorem InertText.ofLine_header (condition : InertText) {keyword : Text}
    (free : BraceFree keyword) (starts : StartsSolid keyword) (nonempty : keyword ≠ []) :
    LineShape.ofLine (condition.header keyword) =
      if continuesBranch (condition.header keyword) then .branch (condition.header keyword) 0
      else .header (condition.header keyword) 0 := by
  have trimmed := condition.trim_header starts nonempty
  have filled : trim (condition.header keyword) ≠ [] := by
    rw [trimmed, header]
    exact List.append_ne_nil_of_left_ne_nil nonempty _
  rw [LineShape.ofLine_of_braceFree (condition.braceFree_header free) filled, trimmed,
    LineShape.ofBody, if_pos condition.getLast?_header]

theorem InertText.ofLine_if (condition : InertText) :
    LineShape.ofLine (condition.header "if".toList) =
      .header (condition.header "if".toList) false.toNat := by
  have other : continuesBranch (condition.header "if".toList) = false := rfl
  rw [condition.ofLine_header ⟨by decide, by decide⟩ (startsSolid_of_head? rfl (by decide))
    (by decide), other]
  rfl

theorem InertText.ofLine_elif (condition : InertText) :
    LineShape.ofLine (condition.header "elif".toList) =
      .branch (condition.header "elif".toList) false.toNat := by
  have branch : continuesBranch (condition.header "elif".toList) = true := rfl
  rw [condition.ofLine_header ⟨by decide, by decide⟩ (startsSolid_of_head? rfl (by decide))
    (by decide), branch]
  rfl

theorem InertLine.ofLine (line : InertLine) :
    LineShape.ofLine line.text = .statement line.text 0 := by
  have filled : trim line.text ≠ [] := by
    rw [line.trimmed]
    exact line.nonempty
  have noBranch : continuesBranch line.text = false := by
    rw [continuesBranch, Bool.or_eq_false_iff]
    constructor
    · rw [← Bool.not_eq_true, List.isPrefixOf_iff_prefix]
      intro starts
      have inside : "if".toList <:+: "elif ".toList := by decide
      exact line.noIf (inside.trans starts.isInfix)
    · rw [← Bool.not_eq_true, List.isPrefixOf_iff_prefix]
      intro starts
      have inside : "else".toList <:+: "else:".toList := by decide
      exact line.noElse (inside.trans starts.isInfix)
  rw [LineShape.ofLine_of_braceFree line.braceFree filled, line.trimmed, LineShape.ofBody, noBranch,
    if_neg Bool.false_ne_true, if_neg line.noColon]

mutual

/-- The converted lines of a tree are set at their depths. -/
theorem BranchTree.sets (tree : BranchTree) (depth loose : Nat) :
    Layout.Sets { depth, loose } (tree.items.map BranchItem.target) (tree.layout depth)
      { depth, loose } := by
  cases tree with
  | empty => exact .nil
  | statement line rest => exact .statement line.ofLine (rest.sets depth loose)
  | branch header body chain rest =>
      rw [BranchTree.items, BranchTree.layout, List.map_cons, List.map_append, List.map_append]
      apply Layout.Sets.opening header.condition.ofLine_if
      apply (body.sets (depth + 1) loose).append
      exact (chain.sets depth loose).append (rest.sets depth loose)

/-- A chain starts inside its first branch, and leaves the last one. -/
theorem BranchChain.sets (chain : BranchChain) (depth loose : Nat) :
    Layout.Sets { depth := depth + 1, loose } (chain.items.map BranchItem.target)
      (chain.layout depth) { depth, loose } := by
  cases chain with
  | close => exact .closing .nil
  | elseIf header body chain =>
      rw [BranchChain.items, BranchChain.layout, List.map_cons, List.map_append]
      apply Layout.Sets.branch header.condition.ofLine_elif
      exact (body.sets (depth + 1) loose).append (chain.sets depth loose)
  | otherwise header body =>
      rw [BranchChain.items, BranchChain.layout, List.map_cons, List.map_append,
        ← List.append_nil (body.layout (depth + 1))]
      apply Layout.Sets.branch (LineShape.ofLine_else false)
      exact (body.sets (depth + 1) loose).append (.closing .nil)

end

/-- Branch chains become indented branches. However the source is indented and wherever the
blanks inside its headers break the line, every statement and every header stands on a line of
its own at the depth of its branch, all branches of a chain at the depth of its `if`, and there
is nothing to remark. -/
theorem BranchTree.convertLayout_convertBranches (tree : BranchTree) {chunks : List Text}
    (indentation : IndentedLines isTabOrSpace chunks (tree.items.map BranchItem.source)) :
    convertLayout (convertBranches (unlines chunks)) = { text := unlines (tree.layout 0) } := by
  obtain ⟨converted, convertedIndentation, branches⟩ :=
    BranchItem.exists_convertBranches indentation
  have single : ∀ text ∈ tree.items.map BranchItem.target, '\n' ∉ text := by
    intro text member
    obtain ⟨item, _, rfl⟩ := List.mem_map.1 member
    exact item.newline_notMem_target
  rw [branches]
  exact (tree.sets 0 0).convertLayout_unlines convertedIndentation single

/-- A chain with another one in its first branch. Some of its headers are broken over lines, and
its conditions hold parentheses. -/
def BranchTree.sample : BranchTree :=
  .branch
    { toParen := ⟨" ".toList, by decide⟩, toBrace := ⟨" ".toList, by decide⟩
      condition :=
        ⟨"a > (b + (c))".toList, by decide, ⟨by decide, by decide⟩, by decide, by decide⟩ }
    (.statement ⟨⟨"x = f(a);".toList, by decide, ⟨by decide, by decide⟩, by decide, by decide⟩,
        by decide, by decide, by decide⟩
      (.branch
        { toParen := ⟨"\n ".toList, by decide⟩, toBrace := ⟨"\n".toList, by decide⟩
          condition := ⟨"d".toList, by decide, ⟨by decide, by decide⟩, by decide, by decide⟩ }
        (.statement ⟨⟨"y = 1".toList, by decide, ⟨by decide, by decide⟩, by decide, by decide⟩,
          by decide, by decide, by decide⟩ .empty)
        .close .empty))
    (.elseIf
      { toElse := ⟨"\n\t".toList, by decide⟩, toIf := ⟨" \n".toList, by decide⟩, apart := by decide
        toParen := ⟨[], by decide⟩, toBrace := ⟨[], by decide⟩
        condition := ⟨"(e)".toList, by decide, ⟨by decide, by decide⟩, by decide, by decide⟩ }
      .empty
      (.otherwise { toElse := ⟨" ".toList, by decide⟩, toBrace := ⟨"\t".toList, by decide⟩ }
        (.statement ⟨⟨"z".toList, by decide, ⟨by decide, by decide⟩, by decide, by decide⟩,
          by decide, by decide, by decide⟩ .empty)))
    (.statement ⟨⟨"w = 2".toList, by decide, ⟨by decide, by decide⟩, by decide, by decide⟩,
      by decide, by decide, by decide⟩ .empty)

/-- The source of the sample behind some indentation. -/
def BranchTree.sampleChunks : List Text :=
  ["if (a > (b + (c))) \x7b".toList, "\tx = f(a);".toList, "if\n (d)\n\x7b".toList,
    "    y = 1".toList, "  \x7d".toList, "\x7d\n\telse \nif((e))\x7b".toList,
    "\x7d else\t\x7b".toList, " z".toList, "\x7d".toList, "w = 2".toList]

theorem BranchTree.convertLayout_convertBranches_sample :
    IndentedLines isTabOrSpace BranchTree.sampleChunks
      (BranchTree.sample.items.map BranchItem.source) ∧
    convertLayout (convertBranches (unlines BranchTree.sampleChunks)) =
      { text := unlines ["if a > (b + (c)):".toList, "    x = f(a);".toList, "    if d:".toList,
          "        y = 1".toList, "elif (e):".toList, "else:".toList, "    z".toList,
          "w = 2".toList] } := by
  have indentation : IndentedLines isTabOrSpace BranchTree.sampleChunks
      (BranchTree.sample.items.map BranchItem.source) :=
    .cons [] _ (by decide) <| .cons "\t".toList _ (by decide) <| .cons [] _ (by decide) <|
    .cons "    ".toList _ (by decide) <| .cons "  ".toList _ (by decide) <|
    .cons [] _ (by decide) <| .cons [] _ (by decide) <| .cons " ".toList _ (by decide) <|
    .cons [] _ (by decide) <| .cons [] _ (by decide) .nil
  exact ⟨indentation, BranchTree.convertLayout_convertBranches BranchTree.sample indentation⟩

end Offside
