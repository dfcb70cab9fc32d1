import WindowFold.Proofs.MergeRun
import WindowFold.Proofs.Phases

/-! Rows spread over several children, aggregated at each of them, and their
partial results merged. This comes to what one aggregation of all rows does. -/
namespace WindowFold

/-- The rows of one job in several, each of which does the first phase for its
own. The closing aggregators do the second one. -/
structure Divided (one : Job) (jobs : List Job) (closers : List Aggregator) : Prop where
  opening : ∀ job ∈ jobs, job.scan = one.scan ∧ job.fresh = one.fresh.map (·.opening)
  rows : one.rows.Perm (jobs.flatMap (·.rows))
  single : ∀ a ∈ one.fresh, a.step = .single
  mergeable : ∀ a ∈ one.fresh, a.accumulator.mergeable = true
  apart : ∀ a ∈ one.fresh, a.accumulator.byTime = true → (one.rows.map (·.time)).Nodup
  closing : List.Forall₂ Aggregator.Closes closers one.fresh
  inputs : closers.map (·.inputs) = Aggregator.partialSpans one.fresh

namespace Aggregator
variable {a c : Aggregator} {rows : List Row}

def kept (a : Aggregator) (range : TimeRange) (rows : List Row) : Accumulator :=
  ((a.enter range).given (rows.filter (Row.within range))).accumulator

/-- The closing aggregator of a window, with what it has come to. -/
def closed (c : Aggregator) (range : TimeRange) (accumulator : Accumulator) : Aggregator :=
  { c.enter range with accumulator := accumulator }

theorem reset_kept (a : Aggregator) (range : TimeRange) (rows : List Row) :
    (a.kept range rows).reset = a.accumulator.reset := by
  rw [kept, given, Accumulator.reset_absorbAll, enter, Accumulator.reset_reset]

theorem reflects_kept {types : List ScalarType} {scan : Scan} (suits : a.Suits types scan rows)
    (mergeable : a.accumulator.mergeable = true) (range : TimeRange) :
    (a.kept range rows).Reflects ((rows.filter (Row.within range)).map a.reading) := by
  refine Accumulator.reflects_absorbAll ?_ (Accumulator.reset_reset _) ?_
  · rw [enter]
    cases acc : a.accumulator <;> simp_all [Accumulator.mergeable, Accumulator.reset]
  · exact ((suits.enter range).fewer List.filter_sublist).separable

theorem output_closed (closes : c.Closes a) (single : a.step = .single) (range : TimeRange) :
    (c.closed range (a.kept range rows)).output =
      ((a.enter range).given (rows.filter (Row.within range))).output := by
  simp only [output, closed, enter, given, closes.step, single, AggregationStep.givesResult,
    if_true]
  rfl

theorem enter_closed {accumulator : Accumulator} (range later : TimeRange) (closes : c.Closes a)
    (same : accumulator.reset = a.accumulator.reset) :
    (c.closed range accumulator).enter later = c.enter later := by
  rw [enter, enter, closes.accumulator, ← same]
  rfl

end Aggregator

namespace Divided
variable {one job : Job} {jobs : List Job} {closers : List Aggregator} {range : TimeRange}
  {w : Window}

theorem taking (divided : Divided one jobs closers) (member : job ∈ jobs) (w : Window) :
    List.Forall₂ (fun c a => Aggregator.taking c (job.row w) =
      (a.kept w.range job.rows).partialResult) closers one.fresh := by
  let parts := one.fresh.map fun a => (a.kept w.range job.rows).partialResult
  have values : (job.row w).values = parts.flatten := by
    rw [Job.row, outputRow, Job.aggregated, (divided.opening job member).2, List.flatMap_def,
      List.map_map, List.map_map]
    rfl
  have widths : one.fresh.map (·.accumulator.partialTypes.length) = parts.map List.length := by
    rw [List.map_map]
    refine List.map_congr_left fun a _ => ?_
    rw [Function.comp_apply, Accumulator.length_partialResult, ← Accumulator.partialTypes_reset,
      ← Aggregator.reset_kept a w.range job.rows, Accumulator.partialTypes_reset]
  have read := spans_read [.int64 (job.row w).time] parts
  rw [← widths, ← values] at read
  change List.map _ (Aggregator.partialSpans one.fresh) = _ at read
  rw [← divided.inputs, List.map_map, List.map_map] at read
  exact (map_eq_map_iff.1 read).imp fun c a there => (job.row w).map_cell there

theorem bound (divided : Divided one jobs closers) :
    ∀ c ∈ closers, ∀ column ∈ c.inputs,
      column < (outputSchema (one.fresh.map (·.opening))).length := by
  intro c member column listed
  have span : c.inputs ∈ Aggregator.partialSpans one.fresh :=
    divided.inputs ▸ List.mem_map_of_mem member
  obtain ⟨a, _, read⟩ := exists_right (Aggregator.partialSpans_fields one.fresh) span
  have there :
    (outputSchema (one.fresh.map (·.opening)))[column]? ∈ a.opening.outputFields.map some :=
    read ▸ List.mem_map_of_mem listed
  obtain ⟨field, _, found⟩ := List.mem_map.1 there
  exact (List.getElem?_eq_some_iff.1 found.symm).1

/-- The rows of all jobs in a window are those of the one. -/
theorem readings (divided : Divided one jobs closers) (a : Aggregator) (range : TimeRange) :
    ((one.rows.filter (Row.within range)).map a.reading).Perm
      (jobs.flatMap fun job => (job.rows.filter (Row.within range)).map a.reading) := by
  have all := (divided.rows.filter (Row.within range)).map a.reading
  rw [List.filter_flatMap, List.map_flatMap] at all
  exact all

theorem distinguishes (divided : Divided one jobs closers) {a : Aggregator} (member : a ∈ one.fresh)
    (range : TimeRange) : a.accumulator.Distinguishes
      (jobs.flatMap fun job => (job.rows.filter (Row.within range)).map a.reading) := by
  have all := divided.readings a range
  have suits := one.suits a member
  constructor
  · intro reading inside
    obtain ⟨r, there, rfl⟩ := List.mem_map.1 (all.mem_iff.2 inside)
    have types := one.typed r (List.mem_of_mem_filter there)
    have bound := suits.bound
    have type : (r.cell a.column).type = one.types[a.column] := by
      simp only [← types]
      exact r.cell_type _ (by rw [types]; exact bound)
    rw [Aggregator.reading, type]
    exact suits.takes
  · intro byTime
    refine ((all.map Prod.fst).nodup_iff).1 ?_
    rw [List.map_map]
    exact (divided.apart a member byTime).sublist (List.filter_sublist.map _)

/-- Fed with the rows of all jobs for a window, a closing aggregator comes to
what one aggregator keeps of all their rows. -/
theorem feedBlocks_eq (divided : Divided one jobs closers) {w : Window} {blocks : List Block}
    (brings : List.Forall₂ (fun block job =>
      Brings (outputSchema (one.fresh.map (·.opening))).types one.scan w block (job.row w))
        blocks jobs)
    {c a : Aggregator} (member : (c, a) ∈ closers.zip one.fresh) :
    (c.enter w.range).feedBlocks blocks = (.ok (), c.closed w.range (a.kept w.range one.rows)) := by
  let types := (outputSchema (one.fresh.map (·.opening))).types
  have closes := (List.forall₂_iff_zip.1 divided.closing).2 member
  obtain ⟨closer, fresh⟩ := List.of_mem_zip member
  have suits := one.suits a fresh
  have mergeable := divided.mergeable a fresh
  let parts := jobs.map fun job =>
    (a.kept w.range job.rows, (job.rows.filter (Row.within w.range)).map a.reading)
  have readings : parts.flatMap (·.2) =
      jobs.flatMap fun job => (job.rows.filter (Row.within w.range)).map a.reading := by
    rw [List.flatMap_map]
  have same : (c.enter w.range).accumulator = a.accumulator.reset := by
    rw [Aggregator.enter, closes.accumulator]
  have collects : (c.enter w.range).Collects types one.scan :=
    ⟨by rw [Aggregator.enter, closes.step]; rfl,
      fun column listed => by
        simpa [types, Schema.types] using divided.bound c closer column listed,
      closes.scan.trans suits.sameScan⟩
  have bears : List.Forall₂ ((c.enter w.range).Bears types one.scan) blocks parts := by
    rw [List.forall₂_map_right_iff]
    refine List.forall₂_iff_zip.2 ⟨brings.length_eq, fun {block job} pair => ?_⟩
    have brought := (List.forall₂_iff_zip.1 brings).2 pair
    obtain ⟨_, listed⟩ := List.of_mem_zip pair
    have taken := (List.forall₂_iff_zip.1 (divided.taking listed w)).2 member
    refine ⟨brought.types, brought.ordered, ?_, ?_, ?_⟩
    · rw [show (c.enter w.range).range = w.range from rfl, brought.within]
      exact congrArg (fun part => [part]) taken
    · have jobSuits := job.suits a.opening (by
        rw [(divided.opening job listed).2]
        exact List.mem_map_of_mem fresh)
      exact Aggregator.reflects_kept (a := a.opening) jobSuits mergeable w.range
    · rw [same, Accumulator.reset_reset]
      exact Aggregator.reset_kept a w.range _
  have start : (c.enter w.range).accumulator.Reflects [] := by
    have nothing := Aggregator.reflects_kept
      (suits.fewer (List.nil_sublist one.rows)) mergeable w.range
    rw [same]
    exact nothing
  obtain ⟨merged, fed, reflects, reset⟩ := Aggregator.feedBlocks_partials bears collects start (by
    rw [List.nil_append, readings, same, Accumulator.distinguishes_reset]
    exact divided.distinguishes fresh w.range)
  rw [List.nil_append, readings] at reflects
  have distinguishes : merged.Distinguishes
      (jobs.flatMap fun job => (job.rows.filter (Row.within w.range)).map a.reading) := by
    rw [← Accumulator.distinguishes_reset, reset, same, Accumulator.reset_reset,
      Accumulator.distinguishes_reset]
    exact divided.distinguishes fresh w.range
  have whole : merged = a.kept w.range one.rows :=
    Accumulator.eq_of_reflects reflects (Aggregator.reflects_kept suits mergeable w.range)
      (by rw [reset, same, Accumulator.reset_reset, Aggregator.reset_kept]) distinguishes
      (divided.readings a w.range).symm
  rw [fed, whole]
  rfl

end Divided

theorem MergeStage.feedAll_eq {blocks : List Block} {before after : List Aggregator}
    (fed : List.Forall₂ (fun a b => a.feedBlocks blocks = (.ok (), b)) before after) :
    feedAll blocks before = (.ok (), after) := by
  induction fed with
  | nil => rfl
  | cons first _ ih => simp only [feedAll, first, ih]

namespace Divided
variable {one : Job} {jobs : List Job} {closers : List Aggregator}

theorem outputTypes_eq (divided : Divided one jobs closers) :
    closers.map (·.outputTypes) = one.fresh.map (·.outputTypes) := by
  refine map_eq_map_iff.2 (List.forall₂_iff_zip.2 ⟨divided.closing.length_eq, fun {c a} pair => ?_⟩)
  have closes := (List.forall₂_iff_zip.1 divided.closing).2 pair
  have single := divided.single a (List.of_mem_zip pair).2
  rw [Aggregator.outputTypes, Aggregator.outputTypes, closes.step, single, closes.accumulator]
  rfl

theorem combine (divided : Divided one jobs closers) (w : Window) {blocks : List Block}
    (brings : List.Forall₂ (fun block job =>
      Brings (outputSchema (one.fresh.map (·.opening))).types one.scan w block (job.row w))
        blocks jobs) :
    ∃ aggregators, MergeStage.feedAll blocks (enterAll closers w.range) = (.ok (), aggregators) ∧
      outputRow aggregators = (one.row w).values ∧
      ∀ range, enterAll aggregators range = enterAll closers range := by
  let pairs := closers.zip one.fresh
  have left : closers = pairs.map Prod.fst :=
    (List.map_fst_zip (Nat.le_of_eq divided.closing.length_eq)).symm
  have right : one.fresh = pairs.map Prod.snd :=
    (List.map_snd_zip (Nat.le_of_eq divided.closing.length_eq.symm)).symm
  have closes : ∀ p ∈ pairs, p.1.Closes p.2 := fun _ member =>
    (List.forall₂_iff_zip.1 divided.closing).2 member
  refine ⟨pairs.map fun p => p.1.closed w.range (p.2.kept w.range one.rows),
    MergeStage.feedAll_eq ?_, ?_, fun range => ?_⟩
  · rw [show enterAll closers w.range = enterAll (pairs.map Prod.fst) w.range by rw [← left]]
    rw [enterAll, List.map_map, List.forall₂_map_left_iff, List.forall₂_map_right_iff,
      List.forall₂_same]
    exact fun p member => divided.feedBlocks_eq brings member
  · rw [Job.row, Job.aggregated, outputRow, outputRow, List.flatMap_map, List.flatMap_map]
    rw [show one.fresh.flatMap _ = (pairs.map Prod.snd).flatMap _ by rw [← right], List.flatMap_map]
    refine List.flatMap_congr fun p member => ?_
    exact Aggregator.output_closed (closes p member)
      (divided.single p.2 (List.of_mem_zip (a := p.1) (b := p.2) member).2) w.range
  · rw [show enterAll closers range = enterAll (pairs.map Prod.fst) range by rw [← left]]
    rw [enterAll, enterAll, List.map_map, List.map_map]
    exact List.map_congr_left fun p member =>
      Aggregator.enter_closed w.range range (closes p member) (Aggregator.reset_kept ..)

/-- A row for each window, of what one job comes to, from the rows of several. -/
def confluence (divided : Divided one jobs closers) : Confluence where
  types := (outputSchema (one.fresh.map (·.opening))).types
  scan := one.scan
  fresh := closers
  parts := jobs.map Job.row
  result := one.row
  timed part member w := by
    obtain ⟨job, _, rfl⟩ := List.mem_map.1 member
    rfl
  resultTime _ := rfl
  resultTypes w := by
    have types : ∀ a : Aggregator, a.outputFields.map (·.type) = a.outputTypes :=
      Aggregator.outputFields_types
    rw [one.row_types]
    simp only [outputSchema, List.tail_cons, Schema.types, List.map_flatMap, types]
    rw [List.flatMap_def, List.flatMap_def, divided.outputTypes_eq]
  combine w blocks brings := by
    rw [List.forall₂_map_right_iff] at brings
    exact divided.combine w brings

end Divided
end WindowFold
