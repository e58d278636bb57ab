import Offside.Proofs.Sequence

/-!
# The log of a run

What the log of a run tells about the run. Every pass opens a span, counts its remarks and says
whether it changed the text; inside the span it tells what became of each construct. The events
of a log are looked up by their titles, and what is told of them is told of their fields.
-/

namespace Offside

/-- The events of a log with a given title. -/
def titled (title : String) (log : List Event) : List Event :=
  log.filter fun event => event.title = title

/-- The number under a label of an event. -/
def Event.number? (label : String) (event : Event) : Option Nat :=
  match event.fields.lookup label with
  | some (.number value) => some value
  | _ => none

section Titled

variable {title : String}

@[simp] theorem titled_nil : titled title [] = [] := rfl

@[simp] theorem titled_append (left right : List Event) :
    titled title (left ++ right) = titled title left ++ titled title right :=
  List.filter_append left right

theorem titled_cons (event : Event) (log : List Event) :
    titled title (event :: log) =
      if event.title = title then event :: titled title log else titled title log := by
  rw [titled, List.filter_cons]
  simp only [decide_eq_true_eq]
  rfl

theorem titled_eq_nil {log : List Event} (other : ∀ event ∈ log, event.title ≠ title) :
    titled title log = [] := by
  rw [titled, List.filter_eq_nil_iff]
  intro event member
  simpa using other event member

end Titled

/-! ## What a pass tells of itself -/

/-- The titles of what a pass tells about single constructs and names. -/
def innerTitles : List String :=
  ["rewrote", "left verbatim", "renaming built-in collision"]

/-- The event that goes with a remark on a construct that was kept. -/
def Remark.keptEvent (remark : Remark) : Event :=
  .kept remark.origin remark.line remark.reason

section Edit

variable {α : Type} {origin : String} {judge : Nat → Text → α → Verdict}

theorem Verdict.title_event (verdict : Verdict) (line : Nat) (matched : Text) :
    (verdict.event origin line matched).title ∈ innerTitles := by
  cases verdict <;> simp [Verdict.event, Event.title, innerTitles]

theorem title_mem_of_mem_editPieces {index line : Nat} {pieces : List (Piece α)} {event : Event}
    (member : event ∈ (editPieces origin judge index line pieces).events) :
    event.title ∈ innerTitles := by
  induction pieces generalizing index line with
  | nil => cases member
  | cons piece pieces ih =>
      cases piece with
      | gap char => exact ih member
      | hit matched value =>
          rcases List.mem_cons.1 member with rfl | later
          · exact (judge index matched value).title_event line matched
          · exact ih later

theorem origin_of_mem_editPieces {index line : Nat} {pieces : List (Piece α)} {remark : Remark}
    (member : remark ∈ (editPieces origin judge index line pieces).remarks) :
    remark.origin = origin := by
  induction pieces generalizing index line with
  | nil => cases member
  | cons piece pieces ih =>
      cases piece with
      | gap char => exact ih member
      | hit matched value =>
          rcases List.mem_append.1 member with here | later
          · rw [Option.mem_toList, Option.map_eq_some_iff] at here
            obtain ⟨reason, _, rfl⟩ := here
            rfl
          · exact ih later

/-- Where no verdict replaces a construct with a remark, the remarks and the kept constructs are
the same. -/
theorem titled_editPieces_of_noFlag
    (noFlag : ∀ index matched value text reason, judge index matched value ≠ .flag text reason)
    (index line : Nat) (pieces : List (Piece α)) :
    titled "left verbatim" (editPieces origin judge index line pieces).events =
      (editPieces origin judge index line pieces).remarks.map Remark.keptEvent := by
  induction pieces generalizing index line with
  | nil => rfl
  | cons piece pieces ih =>
      cases piece with
      | gap char => exact ih index (line + newlines [char])
      | hit matched value =>
          have tail := ih (index + 1) (line + newlines matched)
          cases verdict : judge index matched value with
          | replace text =>
              simp [editPieces, verdict, Verdict.event, Verdict.reason?, titled_cons, Event.title,
                tail]
          | flag text reason => exact absurd verdict (noFlag index matched value text reason)
          | keep reason =>
              simp [editPieces, verdict, Verdict.event, Verdict.reason?, titled_cons, Event.title,
                tail, Remark.keptEvent]

/-- Where no construct is kept, none is told to be kept. -/
theorem titled_editPieces_of_noKeep
    (noKeep : ∀ index matched value reason, judge index matched value ≠ .keep reason)
    (index line : Nat) (pieces : List (Piece α)) :
    titled "left verbatim" (editPieces origin judge index line pieces).events = [] := by
  induction pieces generalizing index line with
  | nil => rfl
  | cons piece pieces ih =>
      cases piece with
      | gap char => exact ih index (line + newlines [char])
      | hit matched value =>
          have tail := ih (index + 1) (line + newlines matched)
          cases verdict : judge index matched value with
          | replace text | flag text reason =>
              simp [editPieces, verdict, Verdict.event, titled_cons, Event.title, tail]
          | keep reason => exact absurd verdict (noKeep index matched value reason)

end Edit

theorem ReadStatement.verdict_ne_flag (statement : ReadStatement) (text : Text) (reason : Reason) :
    statement.verdict ≠ .flag text reason := by
  unfold verdict
  split <;> exact nofun

theorem LoopClauses.verdict_ne_flag (clauses : LoopClauses) (text : Text) (reason : Reason) :
    clauses.verdict ≠ .flag text reason := by
  unfold verdict
  split <;> exact nofun

theorem PrintStatement.verdict_ne_keep (statement : PrintStatement) (reason : Reason) :
    statement.verdict ≠ .keep reason := by
  unfold verdict
  split <;> exact nofun

theorem Layout.origin_of_mem_remarks {margin : Margin} {line : Nat} {texts : List Text}
    {remark : Remark} (member : remark ∈ (Layout.ofLinesFrom margin line texts).remarks) :
    remark.origin = Pass.layout.name := by
  induction texts generalizing margin line with
  | nil => cases member
  | cons text texts ih =>
      rcases List.mem_append.1 member with here | later
      · rw [Option.mem_toList, Option.map_eq_some_iff] at here
        obtain ⟨snippet, _, rfl⟩ := here
        rfl
      · exact ih later

namespace Pass

theorem title_mem_of_mem_events {pass : Pass} {text : Text} {event : Event}
    (member : event ∈ (pass.apply text).events) : event.title ∈ innerTitles := by
  cases pass with
  | reading | loops | printing => exact title_mem_of_mem_editPieces member
  | branches | spelling | layout | closing => cases member
  | naming =>
      obtain ⟨name, _, rfl⟩ := List.mem_map.1 member
      simp [Event.title, innerTitles]

/-- The passes that keep a construct which they have a remark on. -/
def keepers : List String :=
  [reading.name, loops.name]

theorem filter_keepers {remarks : List Remark} {origin : String} (keeps : origin ∈ keepers)
    (origins : ∀ remark ∈ remarks, remark.origin = origin) :
    remarks.filter (·.origin ∈ keepers) = remarks := by
  rw [List.filter_eq_self]
  intro remark member
  rw [origins remark member]
  exact decide_eq_true keeps

theorem filter_keepers_eq_nil {remarks : List Remark} {origin : String} (other : origin ∉ keepers)
    (origins : ∀ remark ∈ remarks, remark.origin = origin) :
    remarks.filter (·.origin ∈ keepers) = [] := by
  rw [List.filter_eq_nil_iff]
  intro remark member
  rw [origins remark member]
  simpa using other

/-- The constructs that a pass tells to be kept are those that it has a remark on, if it is one
of the passes that keep constructs. -/
theorem titled_kept (pass : Pass) (text : Text) :
    titled "left verbatim" (pass.apply text).events =
      ((pass.apply text).remarks.filter (·.origin ∈ keepers)).map Remark.keptEvent := by
  cases pass with
  | reading =>
      have origins : ∀ remark ∈ (convertReads text).remarks, remark.origin = reading.name :=
        fun _ => origin_of_mem_editPieces
      rw [apply, filter_keepers (by decide) origins]
      exact titled_editPieces_of_noFlag (fun _ _ => ReadStatement.verdict_ne_flag) 0 1 _
  | loops =>
      have origins : ∀ remark ∈ (convertLoops text).remarks, remark.origin = loops.name :=
        fun _ => origin_of_mem_editPieces
      rw [apply, filter_keepers (by decide) origins]
      exact titled_editPieces_of_noFlag (fun _ _ => LoopClauses.verdict_ne_flag) 0 1 _
  | printing =>
      have origins : ∀ remark ∈ (convertPrints text).remarks, remark.origin = printing.name :=
        fun _ => origin_of_mem_editPieces
      rw [apply, filter_keepers_eq_nil (by decide) origins]
      exact titled_editPieces_of_noKeep (fun _ _ => PrintStatement.verdict_ne_keep) 0 1 _
  | layout =>
      have origins : ∀ remark ∈ (convertLayout text).remarks, remark.origin = layout.name :=
        fun _ => Layout.origin_of_mem_remarks
      rw [apply, filter_keepers_eq_nil (by decide) origins]
      rfl
  | naming =>
      apply titled_eq_nil
      intro event member
      obtain ⟨name, _, rfl⟩ := List.mem_map.1 member
      simp [Event.title]
  | branches | spelling | closing => rfl

/-! ## The log of one pass -/

section Log

variable (pass : Pass) (text : Text)

/-- Apart from constructs and names, a pass tells that it begins, how many remarks it has, and
whether it changed the text. -/
theorem titled_log {title : String} (outer : title ∉ innerTitles) :
    titled title (pass.log text (pass.apply text)) =
      titled title ([.passBegun pass.name] ++
        (if (pass.apply text).remarks = [] then []
          else [.remarked (pass.apply text).remarks.length]) ++
        (if (pass.apply text).text = text then []
          else [.textChanged (byteLength text) (byteLength (pass.apply text).text)])) := by
  have inner : titled title (pass.apply text).events = [] := by
    apply titled_eq_nil
    rintro event member rfl
    exact outer (title_mem_of_mem_events member)
  simp only [log, titled_append, inner, List.append_nil]

theorem spans_log :
    titled "stage" (pass.log text (pass.apply text)) = [.passBegun pass.name] := by
  rw [titled_log pass text (by decide)]
  split <;> split <;> simp [titled_cons, Event.title]

theorem counts_log :
    titled "constructs left verbatim" (pass.log text (pass.apply text)) =
      if (pass.apply text).remarks = [] then []
      else [.remarked (pass.apply text).remarks.length] := by
  rw [titled_log pass text (by decide)]
  split <;> split <;> simp [titled_cons, Event.title]

theorem changes_log :
    titled "stage changed text" (pass.log text (pass.apply text)) =
      if (pass.apply text).text = text then []
      else [.textChanged (byteLength text) (byteLength (pass.apply text).text)] := by
  rw [titled_log pass text (by decide)]
  split <;> split <;> simp [titled_cons, Event.title]

theorem kept_log :
    titled "left verbatim" (pass.log text (pass.apply text)) =
      ((pass.apply text).remarks.filter (·.origin ∈ keepers)).map Remark.keptEvent := by
  rw [← titled_kept]
  simp only [log, titled_append]
  split <;> split <;> simp [titled_cons, Event.title]

theorem refusals_log :
    titled "strict mode rejected a partial conversion" (pass.log text (pass.apply text)) = [] := by
  rw [titled_log pass text (by decide)]
  split <;> split <;> simp [titled_cons, Event.title]

end Log

end Pass

/-! ## The log of a run -/

/-- Changes of a size in a row: each starts at the size at which the one before it ended. -/
inductive Telescopes : (first last : Nat) → List (Nat × Nat) → Prop where
  | nil {size : Nat} : Telescopes size size []
  | cons {first next last : Nat} {changes : List (Nat × Nat)} :
      Telescopes next last changes → Telescopes first last ((first, next) :: changes)

namespace Run

variable (passes : List Pass) (text : Text)

theorem titled_spans :
    titled "stage" (Run.ofPasses passes text).events =
      passes.map fun pass => .passBegun pass.name := by
  induction passes generalizing text with
  | nil => rfl
  | cons pass passes ih => rw [events_cons, titled_append, pass.spans_log, ih]; rfl

theorem exists_titled_counts :
    ∃ counts : List Nat,
      titled "constructs left verbatim" (Run.ofPasses passes text).events =
        counts.map .remarked ∧
      counts.foldr (· + ·) 0 = (Run.ofPasses passes text).remarks.length := by
  induction passes generalizing text with
  | nil => exact ⟨[], rfl, rfl⟩
  | cons pass passes ih =>
      obtain ⟨counts, listed, total⟩ := ih (pass.apply text).text
      rw [events_cons, titled_append, pass.counts_log, listed, remarks_cons, List.length_append,
        ← total]
      by_cases clean : (pass.apply text).remarks = []
      · exact ⟨counts, by simp [clean], by simp [clean]⟩
      · exact ⟨(pass.apply text).remarks.length :: counts, by simp [clean], by simp⟩

theorem titled_kept :
    titled "left verbatim" (Run.ofPasses passes text).events =
      ((Run.ofPasses passes text).remarks.filter (·.origin ∈ Pass.keepers)).map
        Remark.keptEvent := by
  induction passes generalizing text with
  | nil => rfl
  | cons pass passes ih =>
      rw [events_cons, titled_append, pass.kept_log, ih, remarks_cons, List.filter_append,
        List.map_append]

/-- Where no pass tells of a change, the text is the same behind every pass. -/
theorem exists_titled_changes :
    ∃ changes : List (Nat × Nat),
      titled "stage changed text" (Run.ofPasses passes text).events =
        changes.map (fun change => .textChanged change.1 change.2) ∧
      Telescopes (byteLength text) (byteLength (Run.ofPasses passes text).final) changes ∧
      (changes = [] ↔ ∀ snapshot ∈ (Run.ofPasses passes text).snapshots, snapshot.2 = text) := by
  induction passes generalizing text with
  | nil => exact ⟨[], rfl, .nil, by simp⟩
  | cons pass passes ih =>
      obtain ⟨changes, listed, telescopes, unchanged⟩ := ih (pass.apply text).text
      rw [events_cons, titled_append, pass.changes_log, listed, final_cons, snapshots_cons]
      by_cases same : (pass.apply text).text = text
      · rw [same] at telescopes unchanged ⊢
        exact ⟨changes, by simp, telescopes, by simp [unchanged]⟩
      · exact ⟨_ :: changes, by simp [same], telescopes.cons, by simp [same]⟩

theorem titled_refusals :
    titled "strict mode rejected a partial conversion" (Run.ofPasses passes text).events = [] := by
  induction passes generalizing text with
  | nil => rfl
  | cons pass passes ih => rw [events_cons, titled_append, pass.refusals_log, ih]; rfl

end Run

/-! ## The log of a conversion -/

/-- What the log of a run over a snippet tells about the run. -/
structure Run.Accounts (snippet : Text) (run : Run) (log : List Event) : Prop where
  /-- There is one span for each pass, in order. -/
  spans : (log.filter Event.isSpan).map Event.fields =
    ["input", "loops", "conditionals", "print", "keywords", "indent", "shadowing",
      "diagnostics"].map fun name => [("name", .words name)]
  /-- The counts of remarks add up to the number of remarks. -/
  counts : ∃ counts : List Nat,
    (titled "constructs left verbatim" log).map (Event.number? "count") = counts.map some ∧
      counts.foldr (· + ·) 0 = run.remarks.length
  /-- The constructs that are told to be kept are those of the remarks on reads and loops. -/
  kept : (titled "left verbatim" log).map (fun event => (event.level, event.fields)) =
    (run.remarks.filter (·.origin ∈ ["input", "loops"])).map fun remark =>
      (.trace, [("stage", .words remark.origin), ("line", .number remark.line),
        ("reason", .words remark.reason.message)])
  /-- The changes of size lead from the snippet to the text behind the last pass. There is none
  exactly if the text is the same behind every pass. -/
  changes : ∃ changes : List (Nat × Nat),
    (titled "stage changed text" log).map
        (fun event => (event.number? "before", event.number? "after")) =
      changes.map (fun change => (some change.1, some change.2)) ∧
    Telescopes (byteLength snippet) (byteLength run.final) changes ∧
    (changes = [] ↔ ∀ snapshot ∈ run.snapshots, snapshot.2 = snippet)
  /-- A warning is the last event, and it tells the number of remarks. -/
  warning : ∀ front event back, log = front ++ event :: back → event.level = .warn →
    back = [] ∧ event.number? "count" = some run.remarks.length

theorem Event.isSpan_iff {event : Event} : event.isSpan = true ↔ event.title = "stage" := by
  cases event <;> simp [isSpan, title]

theorem Event.level_eq_warn_iff {event : Event} :
    event.level = .warn ↔ event.title = "strict mode rejected a partial conversion" := by
  cases event <;> simp [level, title]

theorem filter_isSpan (log : List Event) : log.filter Event.isSpan = titled "stage" log := by
  apply List.filter_congr
  intro event _
  rw [Bool.eq_iff_iff, Event.isSpan_iff, decide_eq_true_eq]

section Demand

variable (strict : Bool) (rendition : Rendition)

theorem Rendition.demandLog_cases :
    (∃ refusal, rendition.demand strict = .error refusal) ∧
        rendition.demandLog strict = [.refused rendition.remarks.length] ∨
      rendition.demand strict = .ok rendition ∧ rendition.demandLog strict = [] := by
  cases doubted : strict && !rendition.isClean with
  | true => exact .inl ⟨⟨⟨rendition⟩, by simp [demand, doubted]⟩, by simp [demandLog, doubted]⟩
  | false => exact .inr ⟨by simp [demand, doubted], by simp [demandLog, doubted]⟩

/-- The demand on a rendition adds nothing but a warning to the log. -/
theorem titled_demandLog {title : String}
    (other : title ≠ "strict mode rejected a partial conversion") :
    titled title (rendition.demandLog strict) = [] := by
  apply titled_eq_nil
  intro event member
  rcases rendition.demandLog_cases strict with ⟨_, warned⟩ | ⟨_, silent⟩
  · rw [warned, List.mem_singleton] at member
    rw [member]
    exact Ne.symm other
  · rw [silent] at member
    cases member

end Demand

/-- No run gives a warning. -/
theorem Run.level_ne_warn {passes : List Pass} {text : Text} {event : Event}
    (member : event ∈ (Run.ofPasses passes text).events) : event.level ≠ .warn := by
  intro warns
  have listed : event ∈ titled "strict mode rejected a partial conversion"
      (Run.ofPasses passes text).events :=
    List.mem_filter.2 ⟨member, decide_eq_true (Event.level_eq_warn_iff.1 warns)⟩
  rw [Run.titled_refusals] at listed
  cases listed

/-- The log of a conversion accounts for the run, and a conversion is refused exactly if there is
a warning in its log. -/
theorem logWith_accounts (strict : Bool) (snippet : Text) :
    (Run.ofPasses Pass.sequence snippet).Accounts snippet (logWith strict snippet) ∧
      ((∃ refusal, convertWith strict snippet = .error refusal) ↔
        ∃ event ∈ logWith strict snippet, event.level = .warn) := by
  have log : logWith strict snippet = (Run.ofPasses Pass.sequence snippet).events ++
      (Rendition.ofSnippet snippet).demandLog strict := rfl
  have outer : ∀ title, title ≠ "strict mode rejected a partial conversion" →
      titled title (logWith strict snippet) =
        titled title (Run.ofPasses Pass.sequence snippet).events := by
    intro title other
    rw [log, titled_append, titled_demandLog strict _ other, List.append_nil]
  refine ⟨⟨?spans, ?counts, ?kept, ?changes, ?warning⟩, ?refusal⟩
  case spans =>
    rw [filter_isSpan, outer _ (by decide), Run.titled_spans]
    rfl
  case counts =>
    obtain ⟨counts, listed, total⟩ := Run.exists_titled_counts Pass.sequence snippet
    refine ⟨counts, ?_, total⟩
    rw [outer _ (by decide), listed, List.map_map]
    rfl
  case kept =>
    rw [outer _ (by decide), Run.titled_kept, List.map_map]
    rfl
  case changes =>
    obtain ⟨changes, listed, telescopes, unchanged⟩ :=
      Run.exists_titled_changes Pass.sequence snippet
    refine ⟨changes, ?_, telescopes, unchanged⟩
    rw [outer _ (by decide), listed, List.map_map]
    rfl
  case warning =>
    intro front event back split warns
    rcases (Rendition.ofSnippet snippet).demandLog_cases strict with ⟨_, warned⟩ | ⟨_, silent⟩
    · rw [log, warned] at split
      -- In front of the last event there are the events of the run only.
      rcases List.eq_nil_or_concat back with rfl | ⟨others, last, rfl⟩
      · obtain ⟨_, same⟩ := List.append_inj' split rfl
        cases same
        exact ⟨rfl, rfl⟩
      · rw [List.concat_eq_append, ← List.cons_append, ← List.append_assoc] at split
        obtain ⟨events, _⟩ := List.append_inj' split rfl
        have member : event ∈ (Run.ofPasses Pass.sequence snippet).events := by simp [events]
        exact absurd warns (Run.level_ne_warn member)
    · rw [log, silent, List.append_nil] at split
      have member : event ∈ (Run.ofPasses Pass.sequence snippet).events := by simp [split]
      exact absurd warns (Run.level_ne_warn member)
  case refusal =>
    rw [log, convertWith]
    rcases (Rendition.ofSnippet snippet).demandLog_cases strict with
      ⟨refused, warned⟩ | ⟨accepted, silent⟩
    · rw [warned]
      exact ⟨fun _ => ⟨_, List.mem_append_right _ List.mem_cons_self, rfl⟩, fun _ => refused⟩
    · rw [accepted, silent, List.append_nil]
      constructor
      · rintro ⟨refusal, refused⟩
        cases refused
      · rintro ⟨event, member, warns⟩
        exact absurd warns (Run.level_ne_warn member)

end Offside
