import Offside.Proofs.Text.Pieces

/-!
# Divisions of a text

The hits of a recogniser divide a text into the hits and the gaps around them. A `Division` holds
both in their order, and an `Occurrence` is one hit with all that stands in front of it and behind
it. An edit keeps the gaps and puts outcomes in the places of the hits, and what it remarks on a hit
is read off the occurrence. A proper recogniser finds the same occurrences as a search for the first
construct, then for the first one behind it, and so on.
-/

namespace Offside

variable {α β σ : Type}

/-! ## Occurrences -/

/-- A construct at its place in a text. -/
structure Occurrence (α : Type) where
  /-- What stands in front of it. -/
  front : Text
  matched : Text
  value : α
  /-- What stands behind it. -/
  back : Text
  deriving DecidableEq

namespace Occurrence

/-- The text in which the construct stands. -/
def whole (occurrence : Occurrence α) : Text :=
  occurrence.front ++ (occurrence.matched ++ occurrence.back)

/-- Offset of its first byte. -/
def start (occurrence : Occurrence α) : Nat :=
  byteLength occurrence.front

/-- Offset of the byte behind it. -/
def stop (occurrence : Occurrence α) : Nat :=
  byteLength occurrence.front + byteLength occurrence.matched

/-- The line on which it starts. -/
def line (occurrence : Occurrence α) : Nat :=
  1 + newlines occurrence.front

/-- The construct with more text in front of it. -/
def behind (text : Text) (occurrence : Occurrence α) : Occurrence α :=
  { occurrence with front := text ++ occurrence.front }

/-- The construct with something else recognised in it. -/
def map (image : α → β) (occurrence : Occurrence α) : Occurrence β :=
  { occurrence with value := image occurrence.value }

/-- A remark on the construct. -/
def remark (occurrence : Occurrence α) (origin : String) (reason : Reason) : Remark :=
  { origin, line := occurrence.line, reason, snippet := occurrence.matched }

theorem whole_behind (text : Text) (occurrence : Occurrence α) :
    (occurrence.behind text).whole = text ++ occurrence.whole :=
  List.append_assoc _ _ _

theorem start_behind (text : Text) (occurrence : Occurrence α) :
    (occurrence.behind text).start = byteLength text + occurrence.start :=
  byteLength_append _ _

theorem stop_behind (text : Text) (occurrence : Occurrence α) :
    (occurrence.behind text).stop = byteLength text + occurrence.stop := by
  simp only [stop, behind, byteLength_append, Nat.add_assoc]

end Occurrence

/-- The line of the first character behind a text. -/
theorem lineAt?_append (front back : Text) :
    lineAt? (front ++ back) (byteLength front) = some (1 + newlines front) := by
  induction front with
  | nil => cases back <;> rfl
  | cons char front ih =>
      obtain ⟨size, positive⟩ : ∃ size, char.utf8Size = size + 1 :=
        ⟨char.utf8Size - 1, by have := char.utf8Size_pos; omega⟩
      have offset : char.utf8Size + byteLength front = size + byteLength front + 1 := by omega
      have fits : char.utf8Size ≤ size + byteLength front + 1 := by omega
      have behind : size + byteLength front + 1 - char.utf8Size = byteLength front := by omega
      rw [byteLength_cons, offset, List.cons_append, lineAt?, if_pos fits, behind, ih,
        Option.map_some, newlines_cons]
      split <;> rfl

/-- Lines are counted up to the byte at which a construct starts. -/
theorem Occurrence.lineAt?_start (occurrence : Occurrence α) :
    lineAt? occurrence.whole occurrence.start = some occurrence.line :=
  lineAt?_append _ _

/-! ## Divisions -/

/-- A text that is divided into hits and the gaps around them. -/
inductive Division (α : Type) where
  /-- The gap behind the last hit. -/
  | last (gap : Text)
  | cut (gap matched : Text) (value : α) (tail : Division α)

namespace Division

/-- The gaps, with a text in the place of each hit between them. -/
def weave (place : Text → α → Text) : Division α → Text
  | last gap => gap
  | cut gap matched value tail => gap ++ (place matched value ++ tail.weave place)

/-- The text that is divided. -/
def source (division : Division α) : Text :=
  division.weave fun matched _ => matched

/-- The hits at their places. -/
def occurrences : Division α → List (Occurrence α)
  | last _ => []
  | cut gap matched value tail =>
      ⟨gap, matched, value, tail.source⟩ :: tail.occurrences.map (.behind (gap ++ matched))

/-- The hits and the characters of the gaps. -/
def pieces : Division α → List (Piece α)
  | last gap => gap.map .gap
  | cut gap matched value tail => gap.map .gap ++ .hit matched value :: tail.pieces

/-- The division with more text in front of it. -/
def behind (text : Text) : Division α → Division α
  | last gap => last (text ++ gap)
  | cut gap matched value tail => cut (text ++ gap) matched value tail

/-- The division of pieces that stand one behind the other. -/
def ofPieces : List (Piece α) → Division α
  | [] => last []
  | .gap char :: pieces => (ofPieces pieces).behind [char]
  | .hit matched value :: pieces => cut [] matched value (ofPieces pieces)

/-- The division with something else recognised in the hits. -/
def map (image : α → β) : Division α → Division β
  | last gap => last gap
  | cut gap matched value tail => cut gap matched (image value) (tail.map image)

/-- The verdicts on the hits, by a judge who remembers what has been seen. -/
def judged (judge : σ → Text → α → Verdict × σ) : σ → Division α → Division Verdict
  | _, last gap => last gap
  | memory, cut gap matched value tail =>
      let ruling := judge memory matched value
      cut gap matched ruling.1 (tail.judged judge ruling.2)

variable (division : Division α) (text : Text)

theorem pieces_behind : (division.behind text).pieces = text.map .gap ++ division.pieces := by
  cases division with
  | last gap => exact List.map_append
  | cut gap matched value tail => simp [behind, pieces]

theorem occurrences_behind :
    (division.behind text).occurrences = division.occurrences.map (.behind text) := by
  cases division with
  | last gap => rfl
  | cut gap matched value tail =>
      simp [behind, occurrences, Occurrence.behind, Function.comp_def]

@[simp] theorem pieces_ofPieces (pieces : List (Piece α)) : (ofPieces pieces).pieces = pieces := by
  induction pieces with
  | nil => rfl
  | cons piece pieces ih =>
      cases piece with
      | gap char =>
          rw [ofPieces, pieces_behind, ih]
          rfl
      | hit matched value => simp [ofPieces, Division.pieces, ih]

theorem flatMap_source_pieces : division.pieces.flatMap Piece.source = division.source := by
  have gaps : ∀ gap : Text, (gap.map .gap : List (Piece α)).flatMap Piece.source = gap := by
    intro gap
    rw [List.flatMap_map]
    exact List.flatMap_singleton' gap
  induction division with
  | last gap => exact gaps gap
  | cut gap matched value tail ih =>
      rw [pieces, List.flatMap_append, gaps, List.flatMap_cons, ih]
      rfl

theorem source_ofPieces (pieces : List (Piece α)) :
    (ofPieces pieces).source = pieces.flatMap Piece.source := by
  rw [← flatMap_source_pieces, pieces_ofPieces]

theorem occurrences_ofPieces_gap (char : Char) (pieces : List (Piece α)) :
    (ofPieces (.gap char :: pieces)).occurrences =
      (ofPieces pieces).occurrences.map (.behind [char]) :=
  occurrences_behind _ _

theorem occurrences_ofPieces_hit (matched : Text) (value : α) (pieces : List (Piece α)) :
    (ofPieces (.hit matched value :: pieces)).occurrences =
      ⟨[], matched, value, pieces.flatMap Piece.source⟩ ::
        (ofPieces pieces).occurrences.map (.behind matched) := by
  rw [← source_ofPieces]
  rfl

theorem weave_map (image : α → β) (place : Text → β → Text) :
    (division.map image).weave place =
      division.weave fun matched value => place matched (image value) := by
  induction division with
  | last gap => rfl
  | cut gap matched value tail ih => rw [map, weave, weave, ih]

theorem occurrences_map (image : α → β) :
    (division.map image).occurrences = division.occurrences.map (.map image) := by
  induction division with
  | last gap => rfl
  | cut gap matched value tail ih =>
      have same : (tail.map image).source = tail.source := weave_map tail image _
      rw [map, occurrences, occurrences, ih, same, List.map_cons, List.map_map, List.map_map]
      rfl

/-- A judge who looks at what was recognised only. -/
theorem judged_eq_map (image : α → Verdict) (next : σ → σ) (memory : σ) :
    division.judged (fun memory _ value => (image value, next memory)) memory =
      division.map image := by
  induction division generalizing memory with
  | last gap => rfl
  | cut gap matched value tail ih => exact congrArg (cut gap matched _) (ih _)

end Division

/-! ## Edits -/

/-- Put the outcome of each hit behind what a draft holds already, as a judge who remembers
decides. -/
def writePieces (origin : String) (judge : σ → Text → α → Verdict × σ) :
    (memory : σ) → (line : Nat) → Draft → List (Piece α) → Draft
  | _, _, draft, [] => draft
  | memory, line, draft, .gap char :: pieces =>
      writePieces origin judge memory (line + newlines [char])
        { draft with text := draft.text ++ [char] } pieces
  | memory, line, draft, .hit matched value :: pieces =>
      let ruling := judge memory matched value
      writePieces origin judge ruling.2 (line + newlines matched)
        { text := draft.text ++ ruling.1.outcome matched
          remarks := draft.remarks ++ (ruling.1.reason?.map fun reason =>
            { origin, line, reason, snippet := matched }).toList
          events := draft.events ++ [ruling.1.event origin line matched] } pieces

/-- A judge by number, who remembers the number of hits and nothing else. -/
def countHits (judge : Nat → Text → α → Verdict) (index : Nat) (matched : Text) (value : α) :
    Verdict × Nat :=
  (judge index matched value, index + 1)

section Write

variable (origin : String) (judge : σ → Text → α → Verdict × σ)

theorem writePieces_gaps_append (gap : Text) (pieces : List (Piece α)) (memory : σ) (line : Nat)
    (draft : Draft) :
    writePieces origin judge memory line draft (gap.map .gap ++ pieces) =
      writePieces origin judge memory (line + newlines gap)
        { draft with text := draft.text ++ gap } pieces := by
  induction gap generalizing line draft with
  | nil => simp [newlines]
  | cons char gap ih =>
      have count : newlines (char :: gap) = newlines [char] + newlines gap :=
        newlines_append [char] gap
      rw [List.map_cons, List.cons_append, writePieces, ih, count, Nat.add_assoc]
      simp

/-- Behind what a draft holds there are the gaps with the outcomes between them, and the remarks on
the hits in their order. -/
theorem writePieces_division (division : Division α) (memory : σ) (line : Nat) (draft : Draft) :
    let judged := division.judged judge memory
    let written := writePieces origin judge memory line draft division.pieces
    written.text = draft.text ++ judged.weave (fun matched verdict => verdict.outcome matched) ∧
      written.remarks = draft.remarks ++ judged.occurrences.filterMap fun occurrence =>
        occurrence.value.reason?.map fun reason =>
          { origin, line := line + newlines occurrence.front, reason,
            snippet := occurrence.matched } := by
  intro judged written
  induction division generalizing memory line draft with
  | last gap =>
      have gaps := writePieces_gaps_append origin judge gap [] memory line draft
      rw [List.append_nil] at gaps
      simp [written, judged, Division.pieces, gaps, writePieces, Division.judged, Division.weave,
        Division.occurrences]
  | cut gap matched value tail ih =>
      simp only [written, judged, Division.pieces, writePieces_gaps_append, writePieces]
      refine ⟨(ih _ _ _).1.trans ?_, (ih _ _ _).2.trans ?_⟩
      · simp [Division.judged, Division.weave]
      · simp only [Division.judged, Division.occurrences, List.filterMap_cons,
          List.filterMap_map, Function.comp_def, Occurrence.behind, newlines_append,
          List.append_assoc, Nat.add_assoc]
        cases (judge memory matched value).1.reason? <;> simp

end Write

/-- An edit writes behind nothing, with a judge by number. -/
theorem writePieces_countHits (origin : String) (judge : Nat → Text → α → Verdict)
    (index line : Nat) (draft : Draft) (pieces : List (Piece α)) :
    writePieces origin (countHits judge) index line draft pieces =
      let tail := editPieces origin judge index line pieces
      { text := draft.text ++ tail.text
        remarks := draft.remarks ++ tail.remarks
        events := draft.events ++ tail.events } := by
  induction pieces generalizing index line draft with
  | nil => simp [writePieces, editPieces]
  | cons piece pieces ih =>
      cases piece with
      | gap char => simp [writePieces, editPieces, ih]
      | hit matched value => simp [writePieces, editPieces, ih, countHits]

namespace Recognizer

variable (recognizer : Recognizer α) (origin : String) (text : Text)

/-- The division of a text by the hits of a recogniser. -/
def division : Division α :=
  .ofPieces (recognizer.pieces text)

/-- The hits of a recogniser at their places in a text. -/
def occurrences : List (Occurrence α) :=
  (recognizer.division text).occurrences

theorem source_division : (recognizer.division text).source = text := by
  rw [division, Division.source_ofPieces, flatMap_source_pieces]

theorem edit_eq_writePieces (judge : Nat → Text → α → Verdict) :
    recognizer.edit origin judge text =
      writePieces origin (countHits judge) 0 1 { text := [] }
        (recognizer.division text).pieces := by
  rw [writePieces_countHits, division, Division.pieces_ofPieces]
  rfl

/-- What becomes of a text when the verdict on a hit depends on what was recognised only. -/
theorem edit_division (judge : α → Verdict) :
    let draft := recognizer.edit origin (fun _ _ value => judge value) text
    draft.text =
        (recognizer.division text).weave (fun matched value => (judge value).outcome matched) ∧
      draft.remarks = (recognizer.occurrences text).filterMap fun occurrence =>
        (judge occurrence.value).reason?.map (occurrence.remark origin) := by
  intro draft
  have judged : (recognizer.division text).judged (countHits fun _ _ value => judge value) 0 =
      (recognizer.division text).map judge :=
    Division.judged_eq_map _ judge (· + 1) 0
  obtain ⟨texts, remarks⟩ := writePieces_division origin (countHits fun _ _ value => judge value)
    (recognizer.division text) 0 1 { text := [] }
  rw [judged, Division.weave_map] at texts
  rw [judged, Division.occurrences_map, List.filterMap_map] at remarks
  simp only [draft, edit_eq_writePieces]
  exact ⟨texts, remarks⟩

end Recognizer

/-! ## Searches -/

/-- The constructs that a search from left to right finds in a text, with `before` in front of the
text. -/
structure Recognizer.Scans (recognizer : Recognizer α) (before : Option Char) (text : Text)
    (found : List (Occurrence α)) : Prop where
  /-- Each of them stands in the text. -/
  placed : ∀ occurrence ∈ found, occurrence.whole = text
  /-- Each of them is recognised at its place. -/
  recognised : ∀ occurrence ∈ found,
    recognizer.at? (passed before occurrence.front) (occurrence.matched ++ occurrence.back) =
      some (occurrence.value, occurrence.back)
  /-- They are in order and do not overlap. -/
  ordered : found.Pairwise fun one other => one.start < other.start ∧ one.stop ≤ other.start
  /-- Where something is recognised, one of them starts or has not ended yet. -/
  complete : ∀ front back result, text = front ++ back →
    recognizer.at? (passed before front) back = some result →
    ∃ occurrence ∈ found, occurrence.start ≤ byteLength front ∧
      byteLength front < occurrence.stop

theorem byteLength_pos {text : Text} (nonempty : text ≠ []) : 0 < byteLength text := by
  cases text with
  | nil => exact absurd rfl nonempty
  | cons char text =>
      have positive := char.utf8Size_pos
      rw [byteLength_cons]
      omega

namespace Recognizer.Scans

variable {recognizer : Recognizer α} {before : Option Char} {text : Text}
  {found : List (Occurrence α)}

theorem nil (proper : recognizer.Proper) : recognizer.Scans before [] [] where
  placed := by simp
  recognised := by simp
  ordered := .nil
  complete := by
    intro front back result split hit
    obtain ⟨rfl, rfl⟩ := List.append_eq_nil_iff.1 split.symm
    rw [proper.at?_nil] at hit
    cases hit

theorem gap {char : Char} (missing : recognizer.at? before (char :: text) = none)
    (scans : recognizer.Scans (some char) text found) :
    recognizer.Scans before (char :: text) (found.map (.behind [char])) where
  placed := by
    simp only [List.mem_map, forall_exists_index, and_imp, forall_apply_eq_imp_iff₂]
    intro occurrence member
    rw [Occurrence.whole_behind, scans.placed occurrence member]
    rfl
  recognised := by
    simp only [List.mem_map, forall_exists_index, and_imp, forall_apply_eq_imp_iff₂]
    exact scans.recognised
  ordered := by
    rw [List.pairwise_map]
    refine scans.ordered.imp fun ordered => ?_
    simp only [Occurrence.start_behind, Occurrence.stop_behind]
    omega
  complete := by
    intro front back result split hit
    cases front with
    | nil =>
        rw [List.nil_append] at split
        rw [← split, passed_nil, missing] at hit
        cases hit
    | cons first front =>
        obtain ⟨rfl, rfl⟩ := List.cons.inj split
        obtain ⟨occurrence, member, starts, ends⟩ := scans.complete front back result rfl hit
        refine ⟨_, List.mem_map_of_mem member, ?_, ?_⟩
        · rw [Occurrence.start_behind]
          simpa using starts
        · rw [Occurrence.stop_behind]
          simpa using ends

theorem hit {matched rest : Text} {value : α} (nonempty : matched ≠ [])
    (hit : recognizer.at? before (matched ++ rest) = some (value, rest))
    (scans : recognizer.Scans (passed before matched) rest found) :
    recognizer.Scans before (matched ++ rest)
      (⟨[], matched, value, rest⟩ :: found.map (.behind matched)) where
  placed := by
    simp only [List.forall_mem_cons, List.mem_map, forall_exists_index, and_imp,
      forall_apply_eq_imp_iff₂]
    refine ⟨rfl, fun occurrence member => ?_⟩
    rw [Occurrence.whole_behind, scans.placed occurrence member]
  recognised := by
    simp only [List.forall_mem_cons, List.mem_map, forall_exists_index, and_imp,
      forall_apply_eq_imp_iff₂]
    refine ⟨hit, fun occurrence member => ?_⟩
    rw [Occurrence.behind, passed_append]
    exact scans.recognised occurrence member
  ordered := by
    have taken := byteLength_pos nonempty
    rw [List.pairwise_cons, List.pairwise_map]
    simp only [List.mem_map, forall_exists_index, and_imp, forall_apply_eq_imp_iff₂]
    constructor
    · intro occurrence _
      rw [Occurrence.start_behind]
      simp only [Occurrence.start, Occurrence.stop, byteLength_nil]
      omega
    · refine scans.ordered.imp fun ordered => ?_
      simp only [Occurrence.start_behind, Occurrence.stop_behind]
      omega
  complete := by
    intro front back result split recognised
    have place : (∃ more, more ≠ [] ∧ matched = front ++ more) ∨
        ∃ more, front = matched ++ more ∧ rest = more ++ back := by
      rcases List.append_eq_append_iff.1 split with behind | ⟨more, inside, rest⟩
      · exact .inr behind
      · cases more with
        | nil => exact .inr ⟨[], by simpa using inside.symm, rest.symm⟩
        | cons char more => exact .inl ⟨char :: more, List.cons_ne_nil char more, inside⟩
    rcases place with ⟨more, ahead, rfl⟩ | ⟨more, rfl, rfl⟩
    · have positive := byteLength_pos ahead
      refine ⟨_, List.mem_cons_self, Nat.zero_le _, ?_⟩
      simp only [Occurrence.stop, byteLength_nil, byteLength_append]
      omega
    · rw [passed_append] at recognised
      obtain ⟨occurrence, member, starts, ends⟩ :=
        scans.complete more back result rfl recognised
      refine ⟨_, List.mem_cons_of_mem _ (List.mem_map_of_mem member), ?_, ?_⟩
      · rw [Occurrence.start_behind, byteLength_append]
        omega
      · rw [Occurrence.stop_behind, byteLength_append]
        omega

end Recognizer.Scans

theorem Recognizer.Cuts.flatMap_source {recognizer : Recognizer α} {before : Option Char}
    {text : Text} {pieces : List (Piece α)} (cuts : recognizer.Cuts before text pieces) :
    pieces.flatMap Piece.source = text := by
  induction cuts with
  | nil => rfl
  | gap _ _ ih | hit _ _ _ ih =>
      rw [List.flatMap_cons, ih]
      rfl

/-- The hits among pieces that were cut off from left to right are found by a search. -/
theorem Recognizer.Cuts.scans {recognizer : Recognizer α} (proper : recognizer.Proper)
    {before : Option Char} {text : Text} {pieces : List (Piece α)}
    (cuts : recognizer.Cuts before text pieces) :
    recognizer.Scans before text (Division.ofPieces pieces).occurrences := by
  induction cuts with
  | nil => exact .nil proper
  | gap missing _ ih =>
      rw [Division.occurrences_ofPieces_gap]
      exact .gap missing ih
  | hit nonempty found tail ih =>
      rw [Division.occurrences_ofPieces_hit, tail.flatMap_source]
      exact .hit nonempty found ih

theorem Recognizer.Proper.scans {recognizer : Recognizer α} (proper : recognizer.Proper)
    (text : Text) : recognizer.Scans none text (recognizer.occurrences text) :=
  (proper.cuts none text).scans proper

end Offside
