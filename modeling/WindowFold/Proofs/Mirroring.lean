import WindowFold.Proofs.Division
import WindowFold.Proofs.WindowQueries

/-! A query and its mirror, which scans the other way. Over the same rows in the other
order it gives the same rows in the other order. -/
namespace WindowFold

namespace Scan

@[simp] theorem inOrder_reverse (scan : Scan) (t u : Timestamp) :
    scan.reverse.inOrder t u = scan.inOrder u t := by
  cases scan <;> rfl

theorem ordered_reverse {scan : Scan} {rows : List Row} :
    scan.reverse.Ordered rows.reverse ↔ scan.Ordered rows := by
  simp only [Ordered, List.pairwise_reverse, inOrder_reverse]

end Scan

theorem WindowSeries.scanned_reverse (series : WindowSeries) (scan : Scan) :
    series.scanned scan.reverse = (series.scanned scan).reverse := by
  cases scan with
  | ascending => rfl
  | descending => exact (List.reverse_reverse _).symm

namespace Accumulator
variable {acc : Accumulator} {rows : List (Timestamp × Scalar)}

/-- The same state for a scan the other way. -/
def mirrored : Accumulator → Accumulator
  | valueAt position scan type found => valueAt position scan.reverse type found
  | timeAt position scan found => timeAt position scan.reverse found
  | acc => acc

theorem create_reverse (kind : AggregationKind) (type : ScalarType) (scan : Scan) :
    create kind type scan.reverse = (create kind type scan).map mirrored := by
  unfold create
  split
  · rfl
  · cases kind <;> rfl

theorem reset_mirrored (acc : Accumulator) : acc.mirrored.reset = acc.reset.mirrored := by
  cases acc <;> rfl

theorem result_mirrored (acc : Accumulator) : acc.mirrored.result = acc.result := by
  cases acc <;> rfl

theorem partialResult_mirrored (acc : Accumulator) :
    acc.mirrored.partialResult = acc.partialResult := by
  cases acc <;> rfl

theorem partialTypes_mirrored (acc : Accumulator) :
    acc.mirrored.partialTypes = acc.partialTypes := by
  cases acc <;> rfl

theorem byRow_mirrored (acc : Accumulator) : acc.mirrored.byRow = acc.byRow := by
  cases acc <;> rfl

theorem bySize_mirrored (acc : Accumulator) : acc.mirrored.bySize = acc.bySize := by
  cases acc <;> rfl

theorem mergeable_mirrored (acc : Accumulator) : acc.mirrored.mergeable = acc.mergeable := by
  cases acc <;> rfl

theorem takes_mirrored {type : ScalarType} : acc.mirrored.Takes type ↔ acc.Takes type := by
  cases acc <;> rfl

/-- What rows come to has nothing to do with the scan. -/
theorem reflects_mirrored : acc.mirrored.Reflects rows ↔ acc.Reflects rows := by
  cases acc <;> rfl

theorem separable_mirrored : acc.mirrored.Separable rows.reverse ↔ acc.Separable rows := by
  cases acc with
  | count | sum | avg | extremum | extreme => rfl
  | timeAt => simp only [mirrored, Separable, List.pairwise_reverse, Scan.inOrder_reverse]
  | valueAt =>
    simp only [mirrored, Separable, List.pairwise_reverse, Scan.inOrder_reverse]
    constructor
    · intro apart
      exact apart.imp fun both => ⟨both.1, both.2.symm⟩
    · intro apart
      exact apart.imp fun both => ⟨both.1, both.2.symm⟩

end Accumulator

namespace Aggregator
variable {a : Aggregator} {types : List ScalarType} {scan : Scan} {rows : List Row}

def mirrored (a : Aggregator) : Aggregator :=
  { a with accumulator := a.accumulator.mirrored, scan := a.scan.reverse }

theorem create_reverse {spec : AggregationSpec} {schema : Schema}
    (created : create spec schema scan = .ok a) :
    create spec schema scan.reverse = .ok a.mirrored := by
  obtain ⟨first, others, field, accumulator, inputs, found, fresh, width, rfl⟩ :=
    create_eq_ok.1 created
  refine create_eq_ok.2 ⟨first, others, field, accumulator.mirrored, inputs, found, ?_, ?_, rfl⟩
  · rw [Accumulator.create_reverse, fresh]
    rfl
  · rw [Accumulator.partialTypes_mirrored]
    exact width

theorem output_mirrored (a : Aggregator) : a.mirrored.output = a.output := by
  simp only [output, mirrored, Accumulator.result_mirrored, Accumulator.partialResult_mirrored]

theorem Suits.mirrored (suits : a.Suits types scan rows) :
    a.mirrored.Suits types scan.reverse rows.reverse where
  readsRows := suits.readsRows
  inputs := suits.inputs
  bound := suits.bound
  sameScan := congrArg Scan.reverse suits.sameScan
  byRow := (Accumulator.byRow_mirrored _).trans suits.byRow
  numeric bySize := suits.numeric ((Accumulator.bySize_mirrored _).symm.trans bySize)
  takes := Accumulator.takes_mirrored.2 suits.takes
  separable := by
    rw [List.map_reverse]
    exact Accumulator.separable_mirrored.2 suits.separable

/-- The accumulator of the mirror comes to the same from the other end: both come to
what the rows are, in whatever order they came. -/
theorem kept_mirrored (suits : a.Suits types scan rows) (typed : ∀ r ∈ rows, r.types = types)
    (mergeable : a.accumulator.mergeable = true) (apart : rows.Pairwise fun r s => r.time ≠ s.time)
    (range : TimeRange) : a.mirrored.kept range rows.reverse = (a.kept range rows).mirrored := by
  have here := reflects_kept suits mergeable range
  have there := reflects_kept suits.mirrored
    ((Accumulator.mergeable_mirrored _).trans mergeable) range
  have same : (a.mirrored.kept range rows.reverse).reset = (a.kept range rows).mirrored.reset := by
    rw [reset_kept, Accumulator.reset_mirrored, reset_kept]
    exact Accumulator.reset_mirrored _
  have back : ((rows.reverse.filter (Row.within range)).map a.mirrored.reading) =
      ((rows.filter (Row.within range)).map a.reading).reverse := by
    rw [List.filter_reverse, List.map_reverse]
    rfl
  rw [back] at there
  apply Accumulator.eq_of_reflects there (Accumulator.reflects_mirrored.2 here) same ?_
    (List.reverse_perm _)
  rw [← Accumulator.distinguishes_reset, reset_kept, Accumulator.distinguishes_reset]
  constructor
  · intro reading inside
    obtain ⟨r, member, rfl⟩ := List.mem_map.1 (List.mem_reverse.1 inside)
    have own := typed r (List.mem_of_mem_filter member)
    have bound := suits.bound
    have type : (r.cell a.column).type = types[a.column] := by
      simp only [← own]
      exact r.cell_type _ (by rw [own]; exact bound)
    rw [reading, type]
    exact Accumulator.takes_mirrored.2 suits.takes
  · intro _
    rw [List.map_reverse, List.nodup_reverse, List.map_map]
    apply List.pairwise_map.2
    exact List.Pairwise.filter _ apart

theorem given_mirrored (suits : a.Suits types scan rows) (typed : ∀ r ∈ rows, r.types = types)
    (mergeable : a.accumulator.mergeable = true) (apart : rows.Pairwise fun r s => r.time ≠ s.time)
    (range : TimeRange) : (a.mirrored.enter range).given (rows.reverse.filter (Row.within range)) =
      ((a.enter range).given (rows.filter (Row.within range))).mirrored :=
  congrArg (fun accumulator => { a.mirrored.enter range with accumulator := accumulator })
    (kept_mirrored suits typed mergeable apart range)

end Aggregator

namespace Job
variable {job : Job}

/-- The job over the rows from the other end. -/
def mirrored (job : Job) : Job where
  types := job.types
  scan := job.scan.reverse
  fresh := job.fresh.map (·.mirrored)
  rows := job.rows.reverse
  ordered := Scan.ordered_reverse.2 job.ordered
  typed r member := job.typed r (List.mem_reverse.1 member)
  suits a member := by
    obtain ⟨b, fresh, rfl⟩ := List.mem_map.1 member
    exact (job.suits b fresh).mirrored

/-- Every window has the same row. -/
theorem row_mirrored (mergeable : ∀ a ∈ job.fresh, a.accumulator.mergeable = true)
    (apart : job.rows.Pairwise fun r s => r.time ≠ s.time) (w : Window) :
    job.mirrored.row w = job.row w := by
  have outputs : outputRow (job.mirrored.aggregated w.range job.mirrored.rows) =
      outputRow (job.aggregated w.range job.rows) := by
    rw [outputRow, outputRow, aggregated, aggregated, mirrored, List.map_map, List.flatMap_map,
      List.flatMap_map]
    apply List.flatMap_congr
    intro a fresh
    rw [Function.comp_apply, Aggregator.given_mirrored (job.suits a fresh) job.typed
      (mergeable a fresh) apart, Aggregator.output_mirrored]
  rw [row, row, outputs]

end Job

namespace Query
variable {q : Query} {schema : Schema} {fresh : List Aggregator}

/-- The same query for the other scan. -/
def reverse (q : Query) : Query := { q with scan := q.scan.reverse }

theorem aggregators_reverse (made : q.aggregators schema = .ok fresh) :
    q.reverse.aggregators schema = .ok (fresh.map (·.mirrored)) := by
  obtain ⟨some, created⟩ := aggregators_eq_ok.1 made
  apply aggregators_eq_ok.2
  constructor
  · exact some
  · rw [List.forall₂_map_right_iff]
    exact created.imp fun _ _ new => Aggregator.create_reverse new

theorem windowStage_reverse {series : WindowSeries} {context : Context}
    (made : q.aggregators schema = .ok fresh)
    (windows : WindowSeries.ofGrouping? q.grouping true = .ok series) :
    q.reverse.windowStage context schema =
      .ok (.create context (fresh.map (·.mirrored)) (.start series q.scan.reverse)) := by
  simp only [windowStage, aggregators_reverse made]
  rw [show q.reverse.grouping = q.grouping from rfl, windows]
  rfl

/-- What is accepted for one scan is accepted for the other. Driven to their ends over the
same rows from either side, however these are cut, both give the same rows from either side. -/
theorem drive_windowStage_reverse {σ τ : Type} [Operator σ] [Operator τ]
    {context : Context} (other : Context) {child : Tree σ} {mirror : Tree τ} {stage : WindowStage}
    {rows : List Row} {prompt ready : Bool} {pulls calls : Nat}
    (accepted : q.windowStage context child.schema = .ok stage)
    (same : mirror.schema = child.schema)
    (clock : ∀ g ∈ q.grouping, g.OnClock)
    (readsRows : ∀ spec ∈ q.aggregations, spec.step.readsRows = true)
    (merges : ∀ spec ∈ q.aggregations, spec.kind ≠ .sum ∧ spec.kind ≠ .avg ∧ spec.kind ≠ .extreme)
    (apart : rows.Pairwise fun r s => r.time ≠ s.time)
    (ordered : q.scan.Ordered rows)
    (yields : Yields child.schema.types prompt pulls rows child)
    (backwards : Yields mirror.schema.types ready calls rows.reverse mirror) :
    ∃ back blocks others needed enough,
      q.reverse.windowStage other mirror.schema = .ok back ∧
      (∀ rounds, drive rounds (Tree.window stage child) =
        .ok (if needed < rounds then some blocks else none)) ∧
      (∀ rounds, drive rounds (Tree.window back mirror) =
        .ok (if enough < rounds then some others else none)) ∧
      others.flatMap Block.rows = (blocks.flatMap Block.rows).reverse := by
  obtain ⟨fresh, series, made, windows, rfl⟩ := windowStage_eq_ok accepted
  have suits := suits_of_aggregators made readsRows
    (fun spec listed => ⟨(merges spec listed).1, (merges spec listed).2.1⟩) (fun _ _ _ => apart)
    ordered
  have mergeable : ∀ a ∈ fresh, a.accumulator.mergeable = true := by
    intro a member
    obtain ⟨spec, listed, created⟩ := exists_left (aggregators_eq_ok.1 made).2 member
    obtain ⟨_, _, new, _⟩ := Aggregator.of_create created
    exact Accumulator.mergeable_of_create new (merges spec listed)
  let job : Job := ⟨child.schema.types, q.scan, fresh, rows, ordered, yields.typed, suits⟩
  have rests := WindowStage.rests_create job context clock windows yields
  rw [same] at backwards
  have mirrors := WindowStage.rests_create job.mirrored other clock windows backwards
  obtain ⟨blocks, needed, driven, given, _⟩ := rests.yields_window.drive_eq
  obtain ⟨others, enough, drives, gives, _⟩ := mirrors.yields_window.drive_eq
  refine ⟨_, blocks, others, needed, enough, ?_, driven, drives, ?_⟩
  · rw [same]
    exact windowStage_reverse made windows
  · rw [gives, given]
    change (series.scanned q.scan.reverse).map job.mirrored.row =
      ((series.scanned q.scan).map job.row).reverse
    rw [WindowSeries.scanned_reverse, List.map_reverse]
    congr 1
    exact List.map_congr_left fun w _ => Job.row_mirrored mergeable apart w

/-- The blocks of the sample from the other end, cut in another way. -/
def sampleBackwards : List Answer :=
  [.notReady, .block (sampleBlock [15, 12] [some 8, some 1] rfl),
    .block (sampleBlock [7, 3] [none, some 5] rfl), .block sampleEmpty]

def sampleMirror : Tree Script :=
  .source (.create "mirror" sampleEmpty.schema (sampleBackwards.map .answer) none)

theorem drive_windowStage_reverse_sample :
    ∃ stage back blocks others needed enough,
      sample.windowStage .standard sampleChild.schema = .ok stage ∧
      sample.reverse.windowStage .standard sampleMirror.schema = .ok back ∧
      (∀ rounds, drive rounds (Tree.window stage sampleChild) =
        .ok (if needed < rounds then some blocks else none)) ∧
      (∀ rounds, drive rounds (Tree.window back sampleMirror) =
        .ok (if enough < rounds then some others else none)) ∧
      others.flatMap Block.rows = (blocks.flatMap Block.rows).reverse := by
  have yields : Yields sampleChild.schema.types true (sampleAnswers.length + 1)
      (sampleAnswers.flatMap Answer.rows) sampleChild :=
    Yields.map Tree.embeds_source (Script.yields rfl (by decide) (by
      intro b member
      simp only [sampleAnswers, List.mem_cons, List.not_mem_nil, or_false] at member
      rcases member with same | same | same | same <;> cases same <;> rfl))
  have backwards : Yields sampleMirror.schema.types true (sampleBackwards.length + 1)
      (sampleBackwards.flatMap Answer.rows) sampleMirror :=
    Yields.map Tree.embeds_source (Script.yields rfl (by decide) (by
      intro b member
      simp only [sampleBackwards, List.mem_cons, List.not_mem_nil, or_false] at member
      rcases member with same | same | same | same <;> cases same <;> rfl))
  have accepted : sample.windowStage .standard sampleChild.schema = .ok _ := rfl
  have reversed : sampleBackwards.flatMap Answer.rows =
      (sampleAnswers.flatMap Answer.rows).reverse := by decide
  rw [reversed] at backwards
  obtain ⟨back, blocks, others, needed, enough, mirrored, drives⟩ :=
    drive_windowStage_reverse .standard accepted (rfl : sampleMirror.schema = _)
      (by simp [sample, Grouping.OnClock]; decide) (by decide) (by decide) (by decide) (by decide)
      yields backwards
  exact ⟨_, back, blocks, others, needed, enough, accepted, mirrored, drives⟩

end Query
end WindowFold
