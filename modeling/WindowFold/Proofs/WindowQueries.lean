import WindowFold.Proofs.WindowRun
import WindowFold.Query

/-! The rows of a query over one child. Each window gets what new aggregators
make of all rows within it at once, however the child cuts its rows into blocks
and wherever it makes one wait. -/
namespace WindowFold

def Column.ofRows (type : ScalarType) (c : Nat) (rows : List Row) : Column :=
  ⟨type, rows.map fun r => ((r.cell c).valueAs? type).getD none⟩

/-- What a new aggregator makes of rows that it is given all at once. -/
def AggregationSpec.outputs (spec : AggregationSpec) (schema : Schema) (scan : Scan)
    (rows : List Row) : Except Failure (List Scalar) :=
  match Aggregator.create spec schema scan with
  | .error e => .error e
  | .ok a =>
    match a.accumulator.addRows (rows.map (·.time))
        (.ofRows (schema.types.getD a.column .int64) a.column rows) with
    | .error e => .error e
    | .ok accumulator => .ok { a with accumulator := accumulator }.output

/-- The row of a window: its output time, and the outputs over the rows within it. -/
def Query.windowRow (q : Query) (schema : Schema) (rows : List Row) (w : Window) :
    Except Failure Row :=
  (q.aggregations.mapM fun spec : AggregationSpec =>
    spec.outputs schema q.scan (rows.filter (Row.within w.range))).map fun outputs =>
      ⟨w.outputTime, outputs.flatten⟩

theorem Scalar.valueAs?_eq {s : Scalar} {type : ScalarType} (same : s.type = type) :
    (⟨type, (s.valueAs? type).getD none⟩ : Scalar) = s := by
  subst same
  simp [valueAs?]

theorem Column.scalars_ofRows {type : ScalarType} {c : Nat} {rows : List Row}
    (typed : ∀ r ∈ rows, (r.cell c).type = type) :
    (Column.ofRows type c rows).scalars = rows.map (·.cell c) := by
  rw [Column.scalars, Column.ofRows, List.map_map]
  exact List.map_congr_left fun r member => Scalar.valueAs?_eq (typed r member)

namespace AggregationSpec
variable {spec : AggregationSpec} {schema : Schema} {scan : Scan} {a : Aggregator} {rows : List Row}

theorem outputs_eq (created : Aggregator.create spec schema scan = .ok a)
    (suits : a.Suits schema.types scan rows) (typed : ∀ r ∈ rows, r.types = schema.types)
    (range : TimeRange) :
    spec.outputs schema scan rows = .ok ((a.enter range).given rows).output := by
  have bound := suits.bound
  have type : schema.types.getD a.column .int64 = schema.types[a.column] := by
    simp [List.getD_eq_getElem?_getD, bound]
  have scalars : (Column.ofRows schema.types[a.column] a.column rows).scalars =
      rows.map (·.cell a.column) := Column.scalars_ofRows fun r member => by
    simp only [← typed r member]
    exact r.cell_type _ (by rw [typed r member]; exact suits.bound)
  have paired : (rows.map (·.time)).zip
      (Column.ofRows schema.types[a.column] a.column rows).scalars = rows.map a.reading := by
    rw [scalars, List.zip_map']
    rfl
  have added := Accumulator.addRows_eq suits.byRow (rows.map (·.time))
    (Column.ofRows schema.types[a.column] a.column rows) (by simp [scalars]) suits.numeric
    (by rw [paired]; exact suits.separable)
  have fresh : a.accumulator.reset = a.accumulator := by
    obtain ⟨_, _, made, _⟩ := Aggregator.of_create created
    exact Accumulator.reset_of_create made
  simp only [outputs, created, type, added, paired]
  rw [Aggregator.given, Aggregator.enter]
  simp only [fresh]
  rfl

end AggregationSpec
theorem Yields.typed {σ : Type} [Operator σ] {types : List ScalarType} {prompt : Bool} {pulls : Nat}
    {rows : List Row} {s : σ} (yields : Yields types prompt pulls rows s) :
    ∀ r ∈ rows, r.types = types := by
  obtain ⟨blocks, _, _, rfl, typed⟩ := yields.drive_eq
  intro r member
  obtain ⟨block, given, inside⟩ := List.mem_flatMap.1 member
  rw [block.row_types r inside, typed block given]

namespace WindowStage
variable {σ : Type} [Operator σ]

theorem rests_create (job : Job) (context : Context) {grouping : Option Grouping}
    (clock : ∀ g ∈ grouping, g.OnClock) {keepClipped : Bool} {series : WindowSeries}
    (made : WindowSeries.ofGrouping? grouping keepClipped = .ok series) {child : σ} {prompt : Bool}
    {pulls : Nat} (yields : Yields job.types prompt pulls job.rows child) :
    Rests job prompt (create context job.fresh (.start series job.scan)) child pulls job.rows where
  stands := ⟨[], {
    rows := rfl
    scan := rfl
    chain := WindowSeries.scanned_precedes job.scan clock made
    ahead := nofun
    idle := fun _ _ => rfl
    busy := nofun
    types := nofun }⟩
  running := rfl
  holds := ⟨[], RowBuffer.holds_create _ _⟩
  ended := nofun
  yields _ := yields

end WindowStage

namespace Query
variable {q : Query} {schema : Schema} {rows : List Row}

theorem aggregators_eq_ok {aggregators : List Aggregator} :
    q.aggregators schema = .ok aggregators ↔ q.aggregations ≠ [] ∧
      List.Forall₂ (fun spec a => Aggregator.create spec schema q.scan = .ok a) q.aggregations
        aggregators := by
  rw [Query.aggregators]
  split
  next none =>
    rw [List.isEmpty_iff] at none
    exact ⟨nofun, fun made => absurd none made.1⟩
  next some =>
    rw [List.isEmpty_iff] at some
    exact ⟨fun made => ⟨some, mapM_eq_ok.1 made⟩, fun made => mapM_eq_ok.2 made.2⟩

theorem windowStage_eq_ok {context : Context} {stage : WindowStage}
    (accepted : q.windowStage context schema = .ok stage) :
    ∃ fresh series, q.aggregators schema = .ok fresh ∧
      WindowSeries.ofGrouping? q.grouping true = .ok series ∧
      stage = .create context fresh (.start series q.scan) := by
  rw [windowStage] at accepted
  split at accepted
  · contradiction
  next fresh made =>
  split at accepted
  · contradiction
  next series windows =>
  cases accepted
  exact ⟨fresh, series, made, windows, rfl⟩

/-- The row of a window by its specification is the row of the stage's job. -/
theorem windowRow_eq (job : Job) (types : job.types = schema.types) (scan : job.scan = q.scan)
    (made : q.aggregators schema = .ok job.fresh) (w : Window) :
    q.windowRow schema job.rows w = .ok (job.row w) := by
  have outputs : q.aggregations.mapM (fun spec : AggregationSpec =>
      spec.outputs schema q.scan (job.rows.filter (Row.within w.range))) =
        .ok ((job.aggregated w.range job.rows).map (·.output)) := by
    obtain ⟨same, each⟩ := List.forall₂_iff_zip.1 (aggregators_eq_ok.1 made).2
    rw [mapM_eq_ok, Job.aggregated, List.map_map, List.forall₂_map_right_iff]
    refine List.forall₂_iff_zip.2 ⟨same, fun {spec a} member => ?_⟩
    have created := each member
    rw [← scan] at created ⊢
    refine AggregationSpec.outputs_eq created ?_ (fun r inside => ?_) w.range
    · rw [← types]
      exact (job.suits a (List.of_mem_zip member).2).fewer List.filter_sublist
    · rw [← types]
      exact job.typed r (List.mem_of_mem_filter inside)
  rw [windowRow, outputs]
  simp [Except.map, Job.row, outputRow, List.flatMap_def]

theorem suits_of_aggregators {fresh : List Aggregator} (made : q.aggregators schema = .ok fresh)
    (readsRows : ∀ spec ∈ q.aggregations, spec.step.readsRows = true)
    (rowwise : ∀ spec ∈ q.aggregations, spec.kind ≠ .sum ∧ spec.kind ≠ .avg)
    (apart : ∀ spec ∈ q.aggregations, spec.kind = .firstValue ∨ spec.kind = .lastValue →
      rows.Pairwise fun r s => r.time ≠ s.time)
    (ordered : q.scan.Ordered rows) : ∀ a ∈ fresh, a.Suits schema.types q.scan rows := by
  intro a member
  obtain ⟨spec, listed, created⟩ := exists_left (aggregators_eq_ok.1 made).2 member
  exact Aggregator.suits_of_create created (readsRows spec listed) (rowwise spec listed) ordered
    (apart spec listed)

/-- The stage of a query, driven to its end, gives one row for each window. -/
theorem drive_windowStage {σ : Type} [Operator σ] {context : Context} {child : Tree σ}
    {stage : WindowStage} {prompt : Bool} {pulls : Nat}
    (accepted : q.windowStage context child.schema = .ok stage)
    (clock : ∀ g ∈ q.grouping, g.OnClock)
    (readsRows : ∀ spec ∈ q.aggregations, spec.step.readsRows = true)
    (rowwise : ∀ spec ∈ q.aggregations, spec.kind ≠ .sum ∧ spec.kind ≠ .avg)
    (apart : ∀ spec ∈ q.aggregations, spec.kind = .firstValue ∨ spec.kind = .lastValue →
      rows.Pairwise fun r s => r.time ≠ s.time)
    (ordered : q.scan.Ordered rows)
    (yields : Yields child.schema.types prompt pulls rows child) :
    ∃ series blocks needed outputs,
      WindowSeries.ofGrouping? q.grouping true = .ok series ∧
      (∀ rounds, drive rounds (Tree.window stage child) =
        .ok (if needed < rounds then some blocks else none)) ∧
      (series.scanned q.scan).mapM (q.windowRow child.schema rows) = .ok outputs ∧
      blocks.flatMap Block.rows = outputs := by
  obtain ⟨fresh, series, made, windows, rfl⟩ := windowStage_eq_ok accepted
  have suits := suits_of_aggregators made readsRows rowwise apart ordered
  let job : Job := ⟨child.schema.types, q.scan, fresh, rows, ordered, yields.typed, suits⟩
  have rests := WindowStage.rests_create job context clock windows yields
  obtain ⟨blocks, needed, driven, given, _⟩ := rests.yields_window.drive_eq
  refine ⟨series, blocks, needed, _, windows, driven, mapM_eq_ok.2 ?_, given⟩
  change List.Forall₂ _ (series.scanned q.scan) ((series.scanned q.scan).map job.row)
  rw [List.forall₂_map_right_iff, List.forall₂_same]
  exact fun w _ => windowRow_eq job rfl rfl made w

/-- Windows of ten from 0 to 30, the last without rows. -/
def sample : Query where
  aggregations := [⟨.count, .single, [1], none⟩, ⟨.lastValue, .opening, [1], some "last"⟩]
  grouping := some ⟨0, 30, .millis 10, none, true⟩
  scan := .ascending
  keepsClipped := true

def sampleBlock (times : List Timestamp) (values : List (Option Int))
    (same : values.length = times.length) : Block :=
  ⟨"time", false, times, [⟨"value", true, ⟨.int64, values⟩⟩], by simpa [Column.length] using same⟩

def sampleEmpty : Block := sampleBlock [] [] rfl

/-- A block over two windows, a wait, an empty block, and one more. -/
def sampleAnswers : List Answer :=
  [.block (sampleBlock [3, 7, 12] [some 5, none, some 1] rfl), .notReady,
    .block sampleEmpty, .block (sampleBlock [15] [some 8] rfl)]

def sampleChild : Tree Script :=
  .source (.create "child" sampleEmpty.schema (sampleAnswers.map .answer) none)

theorem drive_windowStage_sample :
    ∃ stage series blocks needed outputs,
      sample.windowStage .standard sampleChild.schema = .ok stage ∧
      WindowSeries.ofGrouping? sample.grouping true = .ok series ∧
      (∀ rounds, drive rounds (Tree.window stage sampleChild) =
        .ok (if needed < rounds then some blocks else none)) ∧
      (series.scanned sample.scan).mapM
        (sample.windowRow sampleChild.schema (sampleAnswers.flatMap Answer.rows)) = .ok outputs ∧
      blocks.flatMap Block.rows = outputs := by
  have yields : Yields sampleChild.schema.types true (sampleAnswers.length + 1)
      (sampleAnswers.flatMap Answer.rows) sampleChild :=
    Yields.map Tree.embeds_source (Script.yields rfl (by decide) (by
      intro b member
      simp only [sampleAnswers, List.mem_cons, List.not_mem_nil, or_false] at member
      rcases member with same | same | same | same <;> cases same <;> rfl))
  have accepted : sample.windowStage .standard sampleChild.schema = .ok _ := rfl
  obtain ⟨series, blocks, needed, outputs, result⟩ :=
    drive_windowStage accepted (by simp [sample, Grouping.OnClock]; decide)
    (by decide) (by decide) (by decide) (by decide) yields
  exact ⟨_, series, blocks, needed, outputs, accepted, result⟩

end Query
end WindowFold
