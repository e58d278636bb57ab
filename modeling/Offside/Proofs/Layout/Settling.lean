import Offside.Proofs.Indentation.Invariance
import Offside.Proofs.Layout.Delimiters

/-!
# The layout settles

A line that starts with a closing brace disappears, and every other line is set as its body: what
is left of it without its braces and the blanks around them. A body has no brace outside its
literals, so that it does not start with one, opens nothing, and is its own body. A second pass
therefore sets the same bodies and finds no closing line, and only their depths may differ. Since a
layout depends on the bodies alone, a third pass repeats the second.
-/

namespace Offside

/-! ## Bodies of lines -/

/-- Whether a line starts with a closing brace, apart from blanks. -/
def closesBlock (line : Text) : Bool :=
  (trim line).head? = some '\x7d'

/-- What a line is set as, apart from its indentation. -/
def lineBody (line : Text) : Text :=
  trim (dropBraces (trim line))

theorem closesBlock_trim (line : Text) : closesBlock (trim line) = closesBlock line := by
  rw [closesBlock, trim_trim, closesBlock]

theorem lineBody_trim (line : Text) : lineBody (trim line) = lineBody line := by
  rw [lineBody, trim_trim, lineBody]

theorem trim_lineBody (line : Text) : trim (lineBody line) = lineBody line :=
  trim_trim _

theorem unbraced_lineBody (line : Text) : Unbraced .outside (lineBody line) :=
  unbraced_trim.2 (unbraced_dropBraces _)

theorem closesBlock_lineBody (line : Text) : closesBlock (lineBody line) = false := by
  rw [closesBlock, trim_lineBody]
  exact decide_eq_false (unbraced_lineBody line).head?_ne_closing

theorem lineBody_lineBody (line : Text) : lineBody (lineBody line) = lineBody line := by
  rw [lineBody, trim_lineBody, (unbraced_lineBody line).dropBraces_eq, trim_lineBody]

/-! ## One line -/

/-- A line is set as its body at some depth. -/
def SetsBody (setText line : Text) : Prop :=
  ∃ depth, setText = atDepth depth (lineBody line)

theorem LineShape.ofLine_of_closes {line : Text} (closes : closesBlock line = true) :
    LineShape.ofLine line = .closing (trim line) := by
  have first : (trim line).head? = some '\x7d' := of_decide_eq_true closes
  have filled : trim line ≠ [] := by
    intro empty
    rw [empty] at first
    cases first
  rw [ofLine_eq, if_neg filled, if_pos first]

theorem Margin.set?_of_closes (margin : Margin) {line : Text} (closes : closesBlock line = true) :
    margin.set? (.ofLine line) = none := by
  rw [LineShape.ofLine_of_closes closes]
  rfl

theorem Margin.exists_setsBody (margin : Margin) {line : Text} (stays : closesBlock line = false) :
    ∃ setText, margin.set? (.ofLine line) = some setText ∧ SetsBody setText line := by
  have first : (trim line).head? ≠ some '\x7d' := of_decide_eq_false stays
  rw [LineShape.ofLine_eq, if_neg first]
  split
  · next blank =>
      refine ⟨[], rfl, 0, ?_⟩
      rw [lineBody, blank]
      rfl
  split
  · next empty =>
      refine ⟨[], rfl, 0, ?_⟩
      rw [lineBody, empty]
      rfl
  · obtain ⟨depth, _, set, _⟩ := margin.set?_ofBody (lineBody line) (openBraces (trim line))
    exact ⟨_, set, depth, rfl⟩

/-- Only a line that closes a block can be stray, and such a line is not set. -/
theorem Margin.stray?_of_stays (margin : Margin) {line : Text} (stays : closesBlock line = false) :
    margin.stray? (.ofLine line) = none := by
  obtain ⟨_, set, _⟩ := margin.exists_setsBody stays
  cases shape : LineShape.ofLine line with
  | closing snippet =>
      rw [shape] at set
      cases set
  | blank | braces | branch | header | statement => rfl

theorem Margin.setsBody_of_set? {margin : Margin} {setText line : Text}
    (set : margin.set? (.ofLine line) = some setText) : SetsBody setText line := by
  cases closes : closesBlock line with
  | true =>
      rw [margin.set?_of_closes closes] at set
      cases set
  | false =>
      obtain ⟨_, found, sets⟩ := margin.exists_setsBody closes
      rw [found, Option.some.injEq] at set
      rwa [← set]

namespace SetsBody

variable {setText line : Text}

theorem trim_eq (sets : SetsBody setText line) : trim setText = lineBody line := by
  obtain ⟨depth, rfl⟩ := sets
  rw [atDepth, trim_append_left (allBlank_replicate_space _), trim_lineBody]

theorem stays (sets : SetsBody setText line) : closesBlock setText = false := by
  rw [← closesBlock_trim, sets.trim_eq, closesBlock_lineBody]

theorem lineBody_eq (sets : SetsBody setText line) : lineBody setText = lineBody line := by
  rw [← lineBody_trim, sets.trim_eq, lineBody_lineBody]

/-- A line that is set could have been set for itself. -/
theorem refl (sets : SetsBody setText line) : SetsBody setText setText := by
  have same := sets.lineBody_eq
  obtain ⟨depth, rfl⟩ := sets
  exact ⟨depth, by rw [same]⟩

/-- The same body at two depths. -/
theorem sameBody {other : Text} (sets : SetsBody setText line) (otherSets : SetsBody other line) :
    SameBody setText other := by
  have isGap : ∀ count, IsGap (List.replicate count ' ') := by
    intro count char member
    rw [List.eq_of_mem_replicate member]
    decide
  obtain ⟨depth, rfl⟩ := sets
  obtain ⟨otherDepth, rfl⟩ := otherSets
  exact sameBody_append (isGap _) (isGap _) _

end SetsBody

/-! ## All lines -/

namespace Layout

/-- The trimmed lines of a layout are the bodies of the lines that close no block. -/
theorem map_trim_lines (texts : List Text) (margin : Margin) (line : Nat) :
    (ofLinesFrom margin line texts).lines.map trim =
      (texts.filter fun text => !closesBlock text).map lineBody := by
  induction texts generalizing margin line with
  | nil => rfl
  | cons text texts ih =>
      rw [ofLinesFrom, List.filter_cons]
      cases closes : closesBlock text with
      | true => simp [margin.set?_of_closes closes, ih]
      | false =>
          obtain ⟨setText, set, sets⟩ := margin.exists_setsBody closes
          simp [set, sets.trim_eq, ih]

/-- Lines as a layout has them: each of them is set as its own body. -/
def Settled (texts : List Text) : Prop :=
  ∀ text ∈ texts, SetsBody text text

theorem settled_lines (texts : List Text) (margin : Margin) (line : Nat) :
    Settled (ofLinesFrom margin line texts).lines := by
  intro setText member
  obtain ⟨text, _, here, set⟩ := exists_set?_of_mem member
  exact (Margin.setsBody_of_set? set).refl

namespace Settled

variable {texts : List Text}

/-- The lines of the next layout differ in their indentation only. -/
theorem forall₂_sameBody (settled : Settled texts) (margin : Margin) (line : Nat) :
    List.Forall₂ SameBody texts (ofLinesFrom margin line texts).lines := by
  induction texts generalizing margin line with
  | nil => exact .nil
  | cons text texts ih =>
      obtain ⟨here, behind⟩ := List.forall_mem_cons.1 settled
      obtain ⟨setText, set, sets⟩ := margin.exists_setsBody here.stays
      rw [ofLinesFrom]
      simp only [set]
      exact .cons (here.sameBody sets) (ih behind _ _)

/-- There is no closing line among the lines of a layout, and so no stray one. -/
theorem remarks_eq (settled : Settled texts) (margin : Margin) (line : Nat) :
    (ofLinesFrom margin line texts).remarks = [] := by
  induction texts generalizing margin line with
  | nil => rfl
  | cons text texts ih =>
      obtain ⟨here, behind⟩ := List.forall_mem_cons.1 settled
      simp only [ofLinesFrom, margin.stray?_of_stays here.stays, ih behind]
      rfl

theorem map_trim_eq (settled : Settled texts) (margin : Margin) (line : Nat) :
    (ofLinesFrom margin line texts).lines.map trim = texts.map trim := by
  have kept : (texts.filter fun text => !closesBlock text) = texts := by
    rw [List.filter_eq_self]
    intro text member
    rw [(settled text member).stays]
    rfl
  rw [map_trim_lines, kept]
  exact List.map_congr_left fun text member => (settled text member).trim_eq.symm

end Settled

end Layout

/-! ## Texts -/

theorem settled_lines_convertLayout (text : Text) :
    Layout.Settled (lines (convertLayout text).text) := by
  have settled : Layout.Settled (Layout.ofLines (lines text)).lines :=
    Layout.settled_lines (lines text) {} 1
  have single := newline_notMem_layout_lines text
  rw [convertLayout]
  by_cases empty : (Layout.ofLines (lines text)).lines = []
  · -- Without lines there is still an empty text, which has one empty line.
    rw [empty]
    intro line member
    rw [List.mem_singleton.1 member]
    exact ⟨0, rfl⟩
  · rwa [lines_unlines empty single]

/-- Where all lines are settled, the layout keeps every line up to its indentation. -/
theorem trimmedLines_convertLayout {text : Text} (settled : Layout.Settled (lines text)) :
    trimmedLines (convertLayout text).text = trimmedLines text := by
  have kept : (Layout.ofLines (lines text)).lines.map trim = (lines text).map trim :=
    settled.map_trim_eq {} 1
  have single := newline_notMem_layout_lines text
  have nonempty : (Layout.ofLines (lines text)).lines ≠ [] := by
    intro empty
    rw [empty] at kept
    exact lines_ne_nil text (List.map_eq_nil_iff.1 kept.symm)
  rw [trimmedLines, convertLayout, lines_unlines nonempty single, kept, trimmedLines]

/-- The layout of a text settles after two passes, and the later passes have nothing to remark. A
pass over a list of lines sets the bodies of those that close no block, in their order, and a second
pass changes nothing but their indentation. -/
theorem convertLayout_settles :
    (∀ text : Text,
      let once := (convertLayout text).text
      let twice := (convertLayout once).text
      (convertLayout twice).text = twice ∧ (convertLayout once).remarks = [] ∧
        (convertLayout twice).remarks = []) ∧
    ∀ texts : List Text,
      let once := (Layout.ofLines texts).lines
      once.map trim = (texts.filter fun line => !closesBlock line).map lineBody ∧
        List.Forall₂ SameBody once (Layout.ofLines once).lines := by
  constructor
  · intro text once twice
    have settled : Layout.Settled (lines once) := settled_lines_convertLayout text
    have silent : (convertLayout once).remarks = [] := settled.remarks_eq {} 1
    have repeated : convertLayout twice = convertLayout once :=
      convertLayout_eq_of_trimmedLines (trimmedLines_convertLayout settled)
    rw [repeated]
    exact ⟨rfl, silent, silent⟩
  · intro texts once
    have settled : Layout.Settled once := Layout.settled_lines texts {} 1
    exact ⟨Layout.map_trim_lines texts {} 1, settled.forall₂_sameBody {} 1⟩

/-- One pass is not enough: without its closing line the block goes on to the end. -/
example :
    let once := (convertLayout "if a: \x7b\nx\n\x7d\ny".toList).text
    once = "if a:\n    x\ny".toList ∧
      (convertLayout once).text = "if a:\n    x\n    y".toList := by
  decide

end Offside
