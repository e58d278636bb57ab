import Offside.Declaration

/-!
# Parts between commas

The declarators of a declaration are found by cutting at commas. Cutting undoes joining with
commas, for parts that no comma cuts and that close what they open. Every text is cut into such
parts, so joining undoes cutting as well, and a second cut finds nothing.
-/

namespace Offside

namespace Quoting

/-- The depth of parentheses and brackets behind a character. -/
def depthBehind (here : Quoting) (depth : Nat) (char : Char) : Nat :=
  if here ≠ .outside then depth
  else if char = '(' ∨ char = '[' then depth + 1
  else if char = ')' ∨ char = ']' then depth - 1
  else depth

/-- The depth of parentheses and brackets behind a text. -/
def depthAfter : (here : Quoting) → (depth : Nat) → Text → Nat
  | _, depth, [] => depth
  | here, depth, char :: rest => (here.next char).depthAfter (here.depthBehind depth char) rest

/-- No comma cuts a text: each one stands in a literal or at some depth. -/
def Unbroken : (here : Quoting) → (depth : Nat) → Text → Prop
  | _, _, [] => True
  | here, depth, char :: rest =>
      ¬(here = .outside ∧ char = ',' ∧ depth = 0) ∧
        (here.next char).Unbroken (here.depthBehind depth char) rest

instance decidableUnbroken : (here : Quoting) → (depth : Nat) → (text : Text) →
    Decidable (here.Unbroken depth text)
  | _, _, [] => .isTrue trivial
  | here, depth, char :: rest =>
      have := decidableUnbroken (here.next char) (here.depthBehind depth char) rest
      inferInstanceAs (Decidable (¬(here = .outside ∧ char = ',' ∧ depth = 0) ∧ _))

theorem depthAfter_append (here : Quoting) (depth : Nat) (left right : Text) :
    here.depthAfter depth (left ++ right) =
      (here.after left).depthAfter (here.depthAfter depth left) right := by
  induction left generalizing here depth with
  | nil => rfl
  | cons char left ih => exact ih _ _

theorem Unbroken.append {here : Quoting} {depth : Nat} {left right : Text}
    (unbroken : here.Unbroken depth left)
    (behind : (here.after left).Unbroken (here.depthAfter depth left) right) :
    here.Unbroken depth (left ++ right) := by
  induction left generalizing here depth with
  | nil => exact behind
  | cons char left ih => exact ⟨unbroken.1, ih unbroken.2 behind⟩

theorem Unbroken.of_append_right {here : Quoting} {depth : Nat} {left right : Text}
    (unbroken : here.Unbroken depth (left ++ right)) :
    (here.after left).Unbroken (here.depthAfter depth left) right := by
  induction left generalizing here depth with
  | nil => exact unbroken
  | cons char left ih => exact ih unbroken.2

/-- If commas cut a text, there is a first one among them. -/
theorem exists_of_not_unbroken {here : Quoting} {depth : Nat} {text : Text}
    (broken : ¬here.Unbroken depth text) :
    ∃ front back, text = front ++ ',' :: back ∧ here.Unbroken depth front ∧
      here.after front = .outside ∧ here.depthAfter depth front = 0 := by
  induction text generalizing here depth with
  | nil => exact absurd trivial broken
  | cons char rest ih =>
      by_cases cuts : here = .outside ∧ char = ',' ∧ depth = 0
      · obtain ⟨rfl, rfl, rfl⟩ := cuts
        exact ⟨[], rest, rfl, trivial, rfl, rfl⟩
      · obtain ⟨front, back, rfl, unbroken, outside, shallow⟩ :=
          ih fun unbroken => broken ⟨cuts, unbroken⟩
        exact ⟨char :: front, back, rfl, ⟨cuts, unbroken⟩, outside, shallow⟩

end Quoting

/-- A text closes the literals, the parentheses and the brackets that it opens. -/
structure Closed (text : Text) : Prop where
  quoting : Quoting.outside.after text = .outside
  depth : Quoting.outside.depthAfter 0 text = 0

instance (text : Text) : Decidable (Closed text) :=
  decidable_of_iff
    (Quoting.outside.after text = .outside ∧ Quoting.outside.depthAfter 0 text = 0)
    ⟨fun closed => ⟨closed.1, closed.2⟩, fun closed => ⟨closed.quoting, closed.depth⟩⟩

theorem Closed.append {left right : Text} (leftClosed : Closed left) (rightClosed : Closed right) :
    Closed (left ++ right) where
  quoting := by rw [Quoting.after_append, leftClosed.quoting, rightClosed.quoting]
  depth := by
    rw [Quoting.depthAfter_append, leftClosed.quoting, leftClosed.depth, rightClosed.depth]

/-- No comma outside literals, parentheses and brackets. -/
def IsPart (text : Text) : Prop :=
  Quoting.outside.Unbroken 0 text

instance (text : Text) : Decidable (IsPart text) :=
  inferInstanceAs (Decidable (Quoting.outside.Unbroken 0 text))

theorem IsPart.append {left right : Text} (leftPart : IsPart left) (closed : Closed left)
    (rightPart : IsPart right) : IsPart (left ++ right) := by
  apply Quoting.Unbroken.append leftPart
  rw [closed.quoting, closed.depth]
  exact rightPart

/-- A comma that cuts a text stands behind a text that is closed. -/
theorem isPart_iff {text : Text} :
    IsPart text ↔ ∀ front back, text = front ++ ',' :: back → ¬Closed front := by
  constructor
  · rintro unbroken front back rfl closed
    exact (Quoting.Unbroken.of_append_right unbroken).1 ⟨closed.quoting, rfl, closed.depth⟩
  · intro apart
    by_cases unbroken : IsPart text
    · exact unbroken
    · obtain ⟨front, back, split, _, outside, shallow⟩ := Quoting.exists_of_not_unbroken unbroken
      exact absurd ⟨outside, shallow⟩ (apart front back split)

theorem isPart_of_comma_notMem {text : Text} (free : ',' ∉ text) : IsPart text :=
  isPart_iff.2 fun front back split _ => free (by simp [split])

/-- A text is cut at its first outermost comma, and then what stands behind it. -/
theorem comma_induction {motive : Text → Prop} (part : ∀ text, IsPart text → motive text)
    (cut : ∀ front back, IsPart front → Closed front → motive back →
      motive (front ++ ',' :: back)) (text : Text) : motive text := by
  by_cases unbroken : IsPart text
  · exact part text unbroken
  · obtain ⟨front, back, split, isPart, outside, shallow⟩ :=
      Quoting.exists_of_not_unbroken unbroken
    rw [split]
    exact cut front back isPart ⟨outside, shallow⟩ (comma_induction part cut back)
termination_by text.length
decreasing_by
  rw [split, List.length_append, List.length_cons]
  omega

/-! ## Texts without a meaning for the scanner -/

/-- The characters that decide where a text is cut. -/
def cutMarks : List Char :=
  quoteMarks ++ ['(', ')', '[', ']', ',']

/-- A character that is no mark leaves the scanner where it is. -/
theorem depthBehind_of_notMem {char : Char} (plain : char ∉ cutMarks) (depth : Nat) :
    Quoting.outside.next char = .outside ∧ Quoting.outside.depthBehind depth char = depth := by
  simp only [cutMarks, List.mem_append, List.mem_cons, List.not_mem_nil, not_or] at plain
  simp [Quoting.next, Quoting.depthBehind, plain]

section Plain

variable {text : Text} (plain : ∀ char ∈ text, char ∉ cutMarks)
include plain

theorem closed_of_plain : Closed text := by
  induction text with
  | nil => exact ⟨rfl, rfl⟩
  | cons char rest ih =>
      obtain ⟨outside, sameDepth⟩ := depthBehind_of_notMem (plain char List.mem_cons_self) 0
      have tail := ih fun other member => plain other (List.mem_cons_of_mem char member)
      constructor
      · rw [Quoting.after_cons, outside, tail.quoting]
      · rw [Quoting.depthAfter, outside, sameDepth, tail.depth]

theorem isPart_of_plain : IsPart text :=
  isPart_of_comma_notMem fun member => plain ',' member (by decide)

end Plain

/-! ## Cutting and joining -/

theorem splitCommasFrom_append {here : Quoting} {depth : Nat} {part : Text}
    (unbroken : here.Unbroken depth part) {rest : List (Char × Quoting)} {first : Text}
    {others : List Text} (cut : splitCommasFrom (here.depthAfter depth part) rest = first :: others) :
    splitCommasFrom depth (here.annotate part ++ rest) = (part ++ first) :: others := by
  induction part generalizing here depth with
  | nil => exact cut
  | cons char part ih =>
      have tail : splitCommasFrom (here.depthBehind depth char)
          ((here.next char).annotate part ++ rest) = (part ++ first) :: others :=
        ih unbroken.2 cut
      rw [Quoting.depthBehind] at tail
      rw [Quoting.annotate_cons, List.cons_append, splitCommasFrom, if_neg unbroken.1]
      simp only [tail, List.cons_append]

theorem IsPart.splitCommas_eq {text : Text} (isPart : IsPart text) : splitCommas text = [text] := by
  have nothingBehind : splitCommasFrom (Quoting.outside.depthAfter 0 text) [] = [[]] := by
    simp [splitCommasFrom]
  simpa [splitCommas] using splitCommasFrom_append isPart nothingBehind

theorem IsPart.splitCommas_append_comma {text : Text} (isPart : IsPart text) (closed : Closed text)
    (rest : Text) : splitCommas (text ++ ',' :: rest) = text :: splitCommas rest := by
  have behind : splitCommasFrom (Quoting.outside.depthAfter 0 text)
      ((Quoting.outside.after text).annotate (',' :: rest)) = [] :: splitCommas rest := by
    rw [closed.depth, closed.quoting]
    rfl
  rw [splitCommas, Quoting.annotate_append, splitCommasFrom_append isPart behind, List.append_nil]

theorem joinWith_comma_cons {parts : List Text} (nonempty : parts ≠ []) (part : Text) :
    joinWith [','] (part :: parts) = part ++ ',' :: joinWith [','] parts := by
  cases parts with
  | nil => exact absurd rfl nonempty
  | cons next rest => simp [joinWith]

/-- Cutting undoes joining. The last part may leave something open. -/
theorem splitCommas_joinWith {parts : List Text} (nonempty : parts ≠ [])
    (areParts : ∀ part ∈ parts, IsPart part) (closed : ∀ part ∈ parts.dropLast, Closed part) :
    splitCommas (joinWith [','] parts) = parts := by
  induction parts with
  | nil => exact absurd rfl nonempty
  | cons part others ih =>
      have isPart := areParts part List.mem_cons_self
      cases others with
      | nil => exact isPart.splitCommas_eq
      | cons next rest =>
          rw [List.dropLast_cons_cons] at closed
          have tail := ih (List.cons_ne_nil next rest)
            (fun other member => areParts other (List.mem_cons_of_mem part member))
            fun other member => closed other (List.mem_cons_of_mem part member)
          rw [joinWith_comma_cons (List.cons_ne_nil next rest),
            isPart.splitCommas_append_comma (closed part List.mem_cons_self), tail]

theorem splitCommas_ne_nil (text : Text) : splitCommas text ≠ [] := by
  induction text using comma_induction with
  | part text isPart => simp [isPart.splitCommas_eq]
  | cut front back isPart closed _ => simp [isPart.splitCommas_append_comma closed]

/-- Joining undoes cutting. -/
theorem joinWith_splitCommas (text : Text) : joinWith [','] (splitCommas text) = text := by
  induction text using comma_induction with
  | part text isPart => rw [isPart.splitCommas_eq, joinWith]
  | cut front back isPart closed ih =>
      rw [isPart.splitCommas_append_comma closed, joinWith_comma_cons (splitCommas_ne_nil back), ih]

theorem isPart_of_mem_splitCommas {text part : Text} (member : part ∈ splitCommas text) :
    IsPart part := by
  induction text using comma_induction with
  | part text isPart =>
      rw [isPart.splitCommas_eq, List.mem_singleton] at member
      rwa [member]
  | cut front back isPart closed ih =>
      rw [isPart.splitCommas_append_comma closed, List.mem_cons] at member
      rcases member with rfl | later
      · exact isPart
      · exact ih later

/-- Only the last part can leave something open. -/
theorem closed_of_mem_dropLast {text part : Text} (member : part ∈ (splitCommas text).dropLast) :
    Closed part := by
  induction text using comma_induction with
  | part text isPart =>
      rw [isPart.splitCommas_eq] at member
      cases member
  | cut front back isPart closed ih =>
      rw [isPart.splitCommas_append_comma closed,
        List.dropLast_cons_of_ne_nil (splitCommas_ne_nil back), List.mem_cons] at member
      rcases member with rfl | later
      · exact closed
      · exact ih later

/-- Cutting and joining are inverse to each other. The parts of a text join to it, and no part is
cut again. A list of texts is found again behind joining exactly if it is not empty, no comma of a
text stands behind a closed front of it, and all texts but the last are closed. -/
theorem splitCommas_inverts_joinWith :
    (∀ text, joinWith [','] (splitCommas text) = text ∧
      ∀ part ∈ splitCommas text, splitCommas part = [part]) ∧
    ∀ parts : List Text, splitCommas (joinWith [','] parts) = parts ↔
      parts ≠ [] ∧
      (∀ part ∈ parts, ∀ front back, part = front ++ ',' :: back → ¬Closed front) ∧
      ∀ part ∈ parts.dropLast, Closed part := by
  refine ⟨fun text => ⟨joinWith_splitCommas text, ?_⟩, fun parts => ⟨?_, ?_⟩⟩
  · intro part member
    exact (isPart_of_mem_splitCommas member).splitCommas_eq
  · intro found
    rw [← found]
    exact ⟨splitCommas_ne_nil _, fun part member => isPart_iff.1 (isPart_of_mem_splitCommas member),
      fun part member => closed_of_mem_dropLast member⟩
  · rintro ⟨nonempty, apart, closed⟩
    exact splitCommas_joinWith nonempty (fun part member => isPart_iff.2 (apart part member)) closed

/-- A call with a comma in a literal, a closing mark that nothing has opened, a literal with an
escaped quote and a comma, and a last part that leaves a bracket and a literal open. -/
def unevenParts : List Text :=
  ["f(a, \"b,)\")".toList, ")y[0]".toList, "'\\',' + c".toList, "[d, \"e".toList]

theorem splitCommas_inverts_joinWith_unevenParts :
    (∀ part ∈ unevenParts, IsPart part) ∧ (∀ part ∈ unevenParts.dropLast, Closed part) ∧
      splitCommas (joinWith [','] unevenParts) = unevenParts ∧
      ∀ part ∈ unevenParts, splitCommas part = [part] := by
  have areParts : ∀ part ∈ unevenParts, IsPart part := by decide
  have closed : ∀ part ∈ unevenParts.dropLast, Closed part := by decide
  have found : splitCommas (joinWith [','] unevenParts) = unevenParts :=
    (splitCommas_inverts_joinWith.2 unevenParts).2
      ⟨List.cons_ne_nil _ _, fun part member => isPart_iff.1 (areParts part member), closed⟩
  have uncut := (splitCommas_inverts_joinWith.1 (joinWith [','] unevenParts)).2
  rw [found] at uncut
  exact ⟨areParts, closed, found, uncut⟩

end Offside
