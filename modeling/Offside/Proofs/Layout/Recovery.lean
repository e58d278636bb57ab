import Offside.Proofs.Layout.Forest

/-!
# Recovery of blocks

Setting the braced lines of a forest gives its indented lines. The argument is an induction
on the forest: `Layout.Sets` says what a stretch of lines turns into and what it leaves open,
stretches compose, and every well-placed part of a forest leaves open what was open in front
of it.
-/

namespace Offside

/-! ## Braces of a line -/

theorem dropBraces_append {left : Text} (closed : Quoting.outside.after left = .outside)
    (right : Text) : dropBraces (left ++ right) = dropBraces left ++ dropBraces right := by
  simp [dropBraces, closed]

theorem openBraces_append {left : Text} (closed : Quoting.outside.after left = .outside)
    (right : Text) : openBraces (left ++ right) = openBraces left + openBraces right := by
  simp [openBraces, closed]

/-- No brace stands outside the literals of a text that starts at some position. -/
def Unbraced (start : Quoting) (text : Text) : Prop :=
  ∀ marked ∈ start.annotate text, isBareBrace marked = false

namespace Unbraced

variable {text : Text}

theorem dropBraces_eq (unbraced : Unbraced .outside text) : dropBraces text = text := by
  have kept : (Quoting.outside.annotate text).filter (fun marked => !isBareBrace marked) =
      Quoting.outside.annotate text := by
    rw [List.filter_eq_self]
    intro marked member
    rw [unbraced marked member]
    rfl
  rw [dropBraces, kept, Quoting.map_fst_annotate]

theorem openBraces_eq (unbraced : Unbraced .outside text) : openBraces text = 0 := by
  rw [openBraces, List.countP_eq_zero]
  rintro ⟨char, quoting⟩ member opening
  have bare := unbraced _ member
  simp_all [isBareBrace]

/-- The first character stands outside every literal, so it is no brace. -/
theorem head?_ne_closing (unbraced : Unbraced .outside text) : text.head? ≠ some '\x7d' := by
  intro first
  obtain ⟨rest, rfl⟩ := List.head?_eq_some_iff.1 first
  have bare := unbraced ('\x7d', .outside) List.mem_cons_self
  exact absurd bare (by decide)

end Unbraced

namespace Phrase

theorem dropBraces_text (phrase : Phrase) : dropBraces phrase.text = phrase.text :=
  Unbraced.dropBraces_eq phrase.bare

theorem openBraces_text (phrase : Phrase) : openBraces phrase.text = 0 :=
  Unbraced.openBraces_eq phrase.bare

theorem startsSolid (phrase : Phrase) : StartsSolid phrase.text :=
  (trim_eq_self_iff.1 phrase.trimmed).1

theorem endsSolid (phrase : Phrase) : EndsSolid phrase.text :=
  (trim_eq_self_iff.1 phrase.trimmed).2

theorem head_ne_closing (phrase : Phrase) : phrase.text.head? ≠ some '\x7d' :=
  Unbraced.head?_ne_closing phrase.bare

/-- The next part of a branch as a phrase. -/
def elif (condition : Phrase) : Phrase where
  text := elifText condition
  nonempty := by simp [elifText_eq]
  trimmed := by
    rw [trim_eq_self_iff]
    constructor
    · exact startsSolid_cons (by decide)
    · exact endsSolid_concat (by decide)
  bare := by
    intro marked member
    have closed := condition.closed
    simp only [elifText_eq, Quoting.annotate_append, Quoting.after_append, List.mem_append]
      at member
    rcases member with (member | member) | member
    · revert marked
      decide
    · exact condition.bare marked member
    · rw [show Quoting.outside.after "elif ".toList = .outside by decide, closed] at member
      revert marked
      decide
  closed := by
    simp only [elifText_eq, Quoting.after_append]
    rw [show Quoting.outside.after "elif ".toList = .outside by decide, condition.closed]
    decide

/-- The last part of a branch as a phrase. -/
def otherwise : Phrase where
  text := elseText
  nonempty := by decide
  trimmed := by decide
  bare := by decide
  closed := by decide

end Phrase

/-! ## Shapes of the lines of a forest -/

/-- The shape of a line whose body is known. -/
def LineShape.ofBody (body : Text) (opened : Nat) : LineShape :=
  if continuesBranch body then branch body opened
  else if body.getLast? = some ':' then header body opened
  else statement body opened

theorem LineShape.ofLine_eq (line : Text) :
    LineShape.ofLine line =
      if trim line = [] then .blank
      else if (trim line).head? = some '\x7d' then .closing (trim line)
      else if trim (dropBraces (trim line)) = [] then .braces (openBraces (trim line))
      else .ofBody (trim (dropBraces (trim line))) (openBraces (trim line)) := rfl

/-- Only the trimmed part of a line decides on its shape. -/
theorem LineShape.ofLine_append_left {indent : Text} (blank : AllBlank indent) (text : Text) :
    LineShape.ofLine (indent ++ text) = LineShape.ofLine text := by
  rw [LineShape.ofLine_eq, LineShape.ofLine_eq, trim_append_left blank]

/-- A text without any brace. -/
structure BraceFree (text : Text) : Prop where
  opening : '\x7b' ∉ text
  closing : '\x7d' ∉ text

theorem BraceFree.mono {text part : Text} (free : BraceFree text) (within : part ⊆ text) :
    BraceFree part where
  opening member := free.opening (within member)
  closing member := free.closing (within member)

/-- The characters of a class without braces make up no brace. -/
theorem BraceFree.of_forall {member : Char → Bool} (noOpening : member '\x7b' = false)
    (noClosing : member '\x7d' = false) {text : Text}
    (inside : ∀ char ∈ text, member char = true) : BraceFree text where
  opening inText := absurd (inside _ inText) (ne_true_of_eq_false noOpening)
  closing inText := absurd (inside _ inText) (ne_true_of_eq_false noClosing)

theorem BraceFree.unbraced {text : Text} (free : BraceFree text) (start : Quoting) :
    Unbraced start text := by
  rintro ⟨char, quoting⟩ member
  have inText := List.mem_map_of_mem (f := Prod.fst) member
  rw [Quoting.map_fst_annotate] at inText
  have noBrace : ¬(char = '\x7b' ∨ char = '\x7d') := by
    rintro (rfl | rfl)
    · exact free.opening inText
    · exact free.closing inText
  simpa [isBareBrace] using fun _ => not_or.1 noBrace

/-- Without braces the body of a line is its trimmed part. -/
theorem LineShape.ofLine_of_braceFree {line : Text} (free : BraceFree line)
    (filled : trim line ≠ []) : LineShape.ofLine line = .ofBody (trim line) 0 := by
  have trimFree : BraceFree (trim line) := free.mono fun _ => mem_of_mem_trim
  have unbraced := trimFree.unbraced .outside
  have first : (trim line).head? ≠ some '\x7d' := fun isFirst =>
    trimFree.closing (List.mem_of_head? isFirst)
  rw [ofLine_eq, if_neg filled, if_neg first, unbraced.dropBraces_eq, unbraced.openBraces_eq,
    trim_trim, if_neg filled]

theorem LineShape.ofLine_phrase (phrase : Phrase) (brace : Bool) :
    LineShape.ofLine (phrase.text ++ braceTail brace) =
      LineShape.ofBody phrase.text brace.toNat := by
  have nonempty := phrase.nonempty
  have filled : phrase.text ++ braceTail brace ≠ [] := by
    simp [nonempty]
  have first : (phrase.text ++ braceTail brace).head? ≠ some '\x7d' := by
    have head := phrase.head_ne_closing
    cases shape : phrase.text with
    | nil => exact absurd shape nonempty
    | cons char rest => simpa [shape] using head
  have trimmed : trim (phrase.text ++ braceTail brace) = phrase.text ++ braceTail brace := by
    apply trim_eq_self (phrase.startsSolid.append nonempty)
    cases brace with
    | false => simpa [braceTail] using phrase.endsSolid
    | true =>
        apply EndsSolid.append _ (by decide)
        intro char last
        obtain rfl : '\x7b' = char := by simpa [braceTail] using last
        decide
  have body : trim (dropBraces (phrase.text ++ braceTail brace)) = phrase.text := by
    rw [dropBraces_append phrase.closed, phrase.dropBraces_text]
    have tail : AllBlank (dropBraces (braceTail brace)) := by
      cases brace <;> decide
    simpa using trim_surrounded allBlank_nil tail phrase.startsSolid phrase.endsSolid
  have opened : openBraces (phrase.text ++ braceTail brace) = brace.toNat := by
    rw [openBraces_append phrase.closed, phrase.openBraces_text]
    cases brace <;> decide
  rw [LineShape.ofLine_eq, trimmed, body, opened, if_neg filled, if_neg first,
    if_neg nonempty]

theorem LineShape.ofLine_plain (phrase : PlainPhrase) (brace : Bool) :
    LineShape.ofLine (phrase.text ++ braceTail brace) =
      .statement phrase.text brace.toNat := by
  rw [LineShape.ofLine_phrase, LineShape.ofBody, phrase.noBranch]
  simp [phrase.noColon]

theorem LineShape.ofLine_header (phrase : HeaderPhrase) (brace : Bool) :
    LineShape.ofLine (phrase.text ++ braceTail brace) = .header phrase.text brace.toNat := by
  rw [LineShape.ofLine_phrase, LineShape.ofBody, phrase.noBranch]
  simp [phrase.colon]

theorem LineShape.ofLine_elif (condition : Phrase) (brace : Bool) :
    LineShape.ofLine (elifText condition ++ braceTail brace) =
      .branch (elifText condition) brace.toNat := by
  have shape := LineShape.ofLine_phrase (Phrase.elif condition) brace
  have branch : continuesBranch (elifText condition) = true := rfl
  simpa [LineShape.ofBody, Phrase.elif, branch] using shape

theorem LineShape.ofLine_else (brace : Bool) :
    LineShape.ofLine (elseText ++ braceTail brace) = .branch elseText brace.toNat :=
  LineShape.ofLine_phrase Phrase.otherwise brace

theorem LineShape.ofLine_closing : LineShape.ofLine closingLine = .closing closingLine := by
  decide

theorem LineShape.ofLine_opener (opener : Option PlainPhrase) :
    LineShape.ofLine (openerLine opener) =
      opener.elim (.braces 1) fun phrase => .statement phrase.text 1 := by
  cases opener with
  | none => decide
  | some phrase => exact LineShape.ofLine_plain phrase true

/-! ## Setting stretches of lines -/

theorem indented_eq_atDepth (depth : Nat) (text : Text) :
    indented depth text = atDepth depth text := by
  have spaces : (List.replicate depth levelIndent.toList).flatten =
      List.replicate (4 * depth) ' ' := by
    rw [show levelIndent.toList = List.replicate 4 ' ' by decide,
      List.flatten_replicate_replicate, Nat.mul_comm]
  rw [indented, atDepth, spaces]

/-- A layout behind more lines. -/
def Layout.prepend (lines : List Text) (layout : Layout) : Layout :=
  { layout with lines := lines ++ layout.lines }

/-- Whatever follows, setting the given texts under a margin gives the given lines and no
remark, and goes on under another margin. -/
def Layout.Sets (margin : Margin) (texts lines : List Text) (behind : Margin) : Prop :=
  ∀ line rest, Layout.ofLinesFrom margin line (texts ++ rest) =
    (Layout.ofLinesFrom behind (line + texts.length) rest).prepend lines

namespace Layout.Sets

variable {margin between behind : Margin}

theorem nil : Layout.Sets margin [] [] margin := by
  intro line rest
  rfl

theorem append {first second firstLines secondLines : List Text}
    (firstSet : Layout.Sets margin first firstLines between)
    (secondSet : Layout.Sets between second secondLines behind) :
    Layout.Sets margin (first ++ second) (firstLines ++ secondLines) behind := by
  intro line rest
  rw [List.append_assoc, firstSet, secondSet, List.length_append, Nat.add_assoc]
  simp [Layout.prepend]

/-- One line, which is no stray closing brace. -/
theorem single {text : Text} {shape : LineShape} (shaped : LineShape.ofLine text = shape)
    (expected : margin.stray? shape = none) :
    Layout.Sets margin [text] (margin.set? shape).toList (margin.next shape) := by
  intro line rest
  simp [Layout.ofLinesFrom, Layout.prepend, shaped, expected]

/-- A line that is set, in front of others. -/
theorem cons {text setText : Text} {texts lines : List Text} {shape : LineShape}
    (shaped : LineShape.ofLine text = shape) (expected : margin.stray? shape = none)
    (set : margin.set? shape = some setText)
    (others : Layout.Sets (margin.next shape) texts lines behind) :
    Layout.Sets margin (text :: texts) (setText :: lines) behind := by
  have first := single shaped expected
  rw [set] at first
  exact first.append others

variable {depth loose : Nat} {texts lines : List Text}

theorem statement {text body : Text} (shaped : LineShape.ofLine text = .statement body 0)
    (others : Layout.Sets { depth, loose } texts lines behind) :
    Layout.Sets { depth, loose } (text :: texts) (atDepth depth body :: lines) behind := by
  refine cons shaped rfl ?_ others
  simp [Margin.set?, indented_eq_atDepth]

theorem plain (phrase : PlainPhrase)
    (others : Layout.Sets { depth, loose } texts lines behind) :
    Layout.Sets { depth, loose } (phrase.text :: texts)
      (atDepth depth phrase.text :: lines) behind := by
  have shaped := LineShape.ofLine_plain phrase false
  simp only [braceTail, Bool.false_eq_true, if_false, List.append_nil] at shaped
  exact statement shaped others

/-- The brace of a header is answered by the closing line of its block, so it is not loose. -/
private theorem loose_header (brace : Bool) : loose + (brace.toNat - 1) = loose := by
  cases brace <;> rfl

/-- A header enters a block. -/
theorem opening {text body : Text} {brace : Bool}
    (shaped : LineShape.ofLine text = .header body brace.toNat)
    (others : Layout.Sets { depth := depth + 1, loose } texts lines behind) :
    Layout.Sets { depth, loose } (text :: texts) (atDepth depth body :: lines) behind := by
  refine cons shaped rfl ?_ ?_
  · simp [Margin.set?, indented_eq_atDepth]
  · simpa only [Margin.next, loose_header] using others

theorem header (phrase : HeaderPhrase) (brace : Bool)
    (others : Layout.Sets { depth := depth + 1, loose } texts lines behind) :
    Layout.Sets { depth, loose } ((phrase.text ++ braceTail brace) :: texts)
      (atDepth depth phrase.text :: lines) behind :=
  opening (LineShape.ofLine_header phrase brace) others

/-- The next part of a branch leaves one block and enters another. -/
theorem branch {text body : Text} {brace : Bool}
    (shaped : LineShape.ofLine text = .branch body brace.toNat)
    (others : Layout.Sets { depth := depth + 1, loose } texts lines behind) :
    Layout.Sets { depth := depth + 1, loose } (text :: texts)
      (atDepth depth body :: lines) behind := by
  refine cons shaped rfl ?_ ?_
  · simp [Margin.set?, indented_eq_atDepth]
  · simpa only [Margin.next, loose_header, Nat.add_sub_cancel] using others

/-- The closing line of a block that a header has opened. -/
theorem closing (others : Layout.Sets { depth, loose } texts lines behind) :
    Layout.Sets { depth := depth + 1, loose } (closingLine :: texts) lines behind := by
  have unmarked : Margin.stray? { depth := depth + 1, loose } (.closing closingLine) = none := by
    simp [Margin.stray?]
  have set := single LineShape.ofLine_closing unmarked
  simp only [Margin.set?, Margin.next, Nat.zero_lt_succ, if_true, Nat.add_sub_cancel] at set
  exact set.append others

/-- The closing line of a loose block, where no other block is open. -/
theorem closing_loose (others : Layout.Sets { depth := 0, loose } texts lines behind) :
    Layout.Sets { depth := 0, loose := loose + 1 } (closingLine :: texts) lines behind := by
  have unmarked : Margin.stray? { depth := 0, loose := loose + 1 } (.closing closingLine) =
      none := by
    simp [Margin.stray?]
  have set := single LineShape.ofLine_closing unmarked
  simp only [Margin.set?, Margin.next, Nat.lt_irrefl, if_false, Nat.add_sub_cancel] at set
  exact set.append others

end Layout.Sets

/-! ## Setting forests -/

mutual

/-- Blocks that hold no loose block leave the margin as it was, whatever it is. -/
theorem Forest.sets_of_isTight (forest : Forest) (tight : forest.isTight = true)
    (depth loose : Nat) :
    Layout.Sets { depth, loose } forest.source (forest.layout depth) { depth, loose } := by
  cases forest with
  | empty => exact Layout.Sets.nil
  | statement phrase rest =>
      have restSet := rest.sets_of_isTight tight depth loose
      exact restSet.plain phrase
  | block header brace body chain rest =>
      simp only [Forest.isTight, Bool.and_eq_true] at tight
      obtain ⟨⟨bodyTight, chainTight⟩, restTight⟩ := tight
      have bodySet := body.sets_of_isTight bodyTight (depth + 1) loose
      have chainSet := chain.sets_of_isTight chainTight depth loose
      have restSet := rest.sets_of_isTight restTight depth loose
      exact (bodySet.append (chainSet.append restSet)).header header brace
  | loose opener body rest => simp [Forest.isTight] at tight

/-- A chain starts inside the block that it goes on with, and leaves it. -/
theorem Chain.sets_of_isTight (chain : Chain) (tight : chain.isTight = true)
    (depth loose : Nat) :
    Layout.Sets { depth := depth + 1, loose } chain.source (chain.layout depth)
      { depth, loose } := by
  cases chain with
  | close => exact Layout.Sets.nil.closing
  | elif condition brace body chain =>
      simp only [Chain.isTight, Bool.and_eq_true] at tight
      have bodySet := body.sets_of_isTight tight.1 (depth + 1) loose
      have chainSet := chain.sets_of_isTight tight.2 depth loose
      exact (bodySet.append chainSet).branch (LineShape.ofLine_elif condition brace)
  | otherwise brace body =>
      have bodySet := body.sets_of_isTight tight (depth + 1) loose
      have closed := bodySet.append Layout.Sets.nil.closing
      rw [List.append_nil] at closed
      exact closed.branch (LineShape.ofLine_else brace)

end

/-- Where no block is open, loose blocks leave the margin as it was too. -/
theorem Forest.sets_of_isWellPlaced (forest : Forest) (placed : forest.isWellPlaced = true)
    (loose : Nat) :
    Layout.Sets { depth := 0, loose } forest.source (forest.layout 0)
      { depth := 0, loose } := by
  cases forest with
  | empty => exact Layout.Sets.nil
  | statement phrase rest =>
      have restSet := rest.sets_of_isWellPlaced placed loose
      exact restSet.plain phrase
  | block header brace body chain rest =>
      simp only [Forest.isWellPlaced, Bool.and_eq_true] at placed
      obtain ⟨⟨bodyTight, chainTight⟩, restPlaced⟩ := placed
      have bodySet := body.sets_of_isTight bodyTight 1 loose
      have chainSet := chain.sets_of_isTight chainTight 0 loose
      have restSet := rest.sets_of_isWellPlaced restPlaced loose
      exact (bodySet.append (chainSet.append restSet)).header header brace
  | loose opener body rest =>
      simp only [Forest.isWellPlaced, Bool.and_eq_true] at placed
      have bodySet := body.sets_of_isWellPlaced placed.1 (loose + 1)
      have restSet := rest.sets_of_isWellPlaced placed.2 loose
      have inside := bodySet.append restSet.closing_loose
      cases opener with
      | none => exact Layout.Sets.cons (LineShape.ofLine_opener none) rfl rfl inside
      | some phrase =>
          refine Layout.Sets.cons (LineShape.ofLine_opener (some phrase)) rfl ?_ inside
          simp [Margin.set?, indented_eq_atDepth]

/-! ## Indentation of the source -/

/-- The layout of lines depends on their shapes only, hence not on their indentation. -/
theorem Layout.ofLinesFrom_of_indentedLines {lines texts : List Text}
    (indentation : IndentedLines isBlank lines texts) (margin : Margin) (line : Nat) :
    Layout.ofLinesFrom margin line lines = Layout.ofLinesFrom margin line texts := by
  induction indentation generalizing margin line with
  | nil => rfl
  | cons indent text blank _ ih =>
      rw [Layout.ofLinesFrom, Layout.ofLinesFrom, LineShape.ofLine_append_left blank, ih]

/-- Texts behind any indentation are set as without it. -/
theorem Layout.Sets.ofLines_eq {indented texts lines : List Text} {behind : Margin}
    (sets : Layout.Sets {} texts lines behind)
    (indentation : IndentedLines isBlank indented texts) :
    Layout.ofLines indented = { lines, remarks := [] } := by
  have set := sets 1 []
  rw [Layout.ofLines, Layout.ofLinesFrom_of_indentedLines indentation]
  simpa [Layout.prepend, Layout.ofLinesFrom] using set

/-- The braced lines of a well-placed forest, behind any indentation, are set as its indented
lines, and there is nothing to remark. -/
theorem Forest.ofLines_source (forest : Forest) (placed : forest.isWellPlaced = true)
    {lines : List Text} (indentation : IndentedLines isBlank lines forest.source) :
    Layout.ofLines lines = { lines := forest.layout 0, remarks := [] } :=
  (forest.sets_of_isWellPlaced placed 0).ofLines_eq indentation

/-- A branch chain in a loop in a loose block. One of its conditions holds a brace in a
literal. -/
def Forest.sample : Forest :=
  .loose (some ⟨⟨"while (on)".toList, by decide, by decide, by decide, by decide⟩,
      by decide, by decide⟩)
    (.block ⟨⟨"for i in r:".toList, by decide, by decide, by decide, by decide⟩,
        by decide, by decide⟩ true
      (.block ⟨⟨"if a:".toList, by decide, by decide, by decide, by decide⟩,
          by decide, by decide⟩ false
        .empty
        (.elif ⟨"c == '\x7d'".toList, by decide, by decide, by decide, by decide⟩ false
          (.statement ⟨⟨"x = 1".toList, by decide, by decide, by decide, by decide⟩,
            by decide, by decide⟩ .empty)
          (.otherwise true .empty))
        .empty)
      .close .empty)
    .empty

/-- The lines of the sample behind some indentation. -/
def Forest.sampleLines : List Text :=
  ["while (on) \x7b".toList, "\tfor i in r: \x7b".toList, "if a:".toList,
    "  elif c == '\x7d':".toList, "x = 1".toList, " else: \x7b".toList, "\x7d".toList,
    "\x7d".toList, "\x7d".toList]

theorem Forest.ofLines_source_sample :
    Forest.sample.isWellPlaced = true ∧
    IndentedLines isBlank Forest.sampleLines Forest.sample.source ∧
    Layout.ofLines Forest.sampleLines =
      { lines := ["while (on)".toList, "for i in r:".toList, "    if a:".toList,
          "    elif c == '\x7d':".toList, "        x = 1".toList, "    else:".toList],
        remarks := [] } := by
  have indentation : IndentedLines isBlank Forest.sampleLines Forest.sample.source :=
    .cons [] _ (by decide) <| .cons "\t".toList _ (by decide) <| .cons [] _ (by decide) <|
    .cons "  ".toList _ (by decide) <| .cons [] _ (by decide) <|
    .cons " ".toList _ (by decide) <| .cons [] _ (by decide) <| .cons [] _ (by decide) <|
    .cons [] _ (by decide) .nil
  exact ⟨rfl, indentation, Forest.ofLines_source Forest.sample rfl indentation⟩

end Offside
