import WindowFold.Operator.MergeStage
import WindowFold.Proofs.Closing
import WindowFold.Proofs.Phases
import WindowFold.Proofs.Rounds
import WindowFold.Proofs.Saturation
import WindowFold.Proofs.WindowQueries

/-! Inputs in another order. Where an aggregator takes in every row of several
blocks, it does not matter which block comes first. -/
namespace WindowFold

namespace Accumulator

/-- The first row with a value settles it. -/
def hasty : Accumulator → Bool
  | valueAt position scan _ _ => position.leads scan
  | timeAt position scan _ => position.leads scan
  | _ => false

variable {acc : Accumulator}

@[simp] theorem hasty_reset (acc : Accumulator) : acc.reset.hasty = acc.hasty := by
  cases acc <;> rfl

@[simp] theorem mergeable_reset (acc : Accumulator) : acc.reset.mergeable = acc.mergeable := by
  cases acc <;> rfl

@[simp] theorem byTime_reset (acc : Accumulator) : acc.reset.byTime = acc.byTime := by
  cases acc <;> rfl

theorem absorb_comm (mergeable : acc.mergeable = true) (patient : acc.hasty = false)
    {x y : Timestamp × Scalar} (takes : acc.Takes x.2.type ∧ acc.Takes y.2.type)
    (apart : acc.byTime = true → x.1 = y.1 → x = y) :
    (acc.absorb x).absorb y = (acc.absorb y).absorb x := by
  cases left : x.2.isNull with
  | true => rw [absorb_null x left, absorb_null x left]
  | false =>
    cases right : y.2.isNull with
    | true => rw [absorb_null y right, absorb_null y right]
    | false =>
      cases acc with
      | sum | avg | extreme => contradiction
      | count n => simp [absorb, left, right, isSettled]
      | extremum greatest type best =>
        have decided := @decisive_beats [x, y] greatest type
          (by simpa [Takes] using takes) x.2 (by simp [filled, left, right]) y.2
          (by simp [filled, left, right])
        simp only [absorb, left, right, isSettled, Bool.or_self, Bool.false_eq_true, if_false,
          offerExtremum_eq, choose_comm (ranking_beats greatest) decided]
      | valueAt position scan type found =>
        have leads : position.leads scan = false := patient
        have decided : position.prefers x.1 y.1 = false →
            position.prefers y.1 x.1 = false → x = y := fun first second => apart rfl
            (decisive_prefers position [x.1, y.1] x.1 (by simp) y.1 (by simp) first second)
        simp [absorb, left, right, isSettled, leads, offerValue_eq,
          choose_comm (ranking_valueAt position) decided]
      | timeAt position scan found =>
        have leads : position.leads scan = false := patient
        have decided := decisive_prefers position [x.1, y.1] x.1 (by simp) y.1 (by simp)
        simp [absorb, left, right, isSettled, leads, offerTime_eq,
          choose_comm position.ranking decided]

theorem absorbAll_hasty (hasty : acc.hasty = true) (fresh : acc.reset = acc)
    {rows others : List (Timestamp × Scalar)}
    (first : (filled rows).head? = (filled others).head?) :
    acc.absorbAll rows = acc.absorbAll others := by
  rw [← absorbAll_filled, ← @absorbAll_filled acc others]
  cases acc with
  | count | sum | avg | extremum | extreme => contradiction
  | valueAt position scan type found =>
    obtain rfl : none = found := (valueAt.inj fresh).2.2.2
    rw [absorbAll_valueAt_leading hasty type filled_full,
      absorbAll_valueAt_leading hasty type filled_full, first]
  | timeAt position scan found =>
    obtain rfl : none = found := (timeAt.inj fresh).2.2
    rw [absorbAll_timeAt_leading hasty filled_full, absorbAll_timeAt_leading hasty filled_full,
      first]

@[simp] theorem shareTime?_reset (acc : Accumulator) (columns : List Scalar) :
    acc.reset.shareTime? columns = acc.shareTime? columns := by
  cases acc <;> rcases columns with _ | ⟨_, _ | ⟨_, _ | _⟩⟩ <;> rfl

theorem addPartial_taken (mergeable : acc.mergeable = true) {columns : List Scalar}
    (width : columns.length = acc.partialTypes.length) : (acc.addPartial columns).1 = .ok () := by
  cases acc with
  | sum | avg | extreme => contradiction
  | count n =>
    obtain ⟨s, rfl⟩ := List.length_eq_one_iff.1 width
    obtain ⟨k, read⟩ := s.toInt64?_ok
    simp [addPartial, read]
  | extremum greatest type best =>
    obtain ⟨s, rfl⟩ := List.length_eq_one_iff.1 width
    rfl
  | valueAt position scan type found =>
    obtain ⟨s, time, rfl⟩ := List.length_eq_two.1 width
    rw [addPartial_valueAt]
  | timeAt position scan found =>
    obtain ⟨time, rfl⟩ := List.length_eq_one_iff.1 width
    rw [addPartial_timeAt]

theorem addPartial_comm (mergeable : acc.mergeable = true) {x y : List Scalar}
    (width : x.length = acc.partialTypes.length ∧ y.length = acc.partialTypes.length)
    (takes : (∀ s ∈ x.head?, acc.Takes s.type) ∧ ∀ s ∈ y.head?, acc.Takes s.type)
    (apart : acc.byTime = true → ∀ t, acc.shareTime? x = some t → acc.shareTime? y = some t →
      x = y) :
    ((acc.addPartial x).2.addPartial y).2 = ((acc.addPartial y).2.addPartial x).2 := by
  cases acc with
  | sum | avg | extreme => contradiction
  | count n =>
    obtain ⟨s, rfl⟩ := List.length_eq_one_iff.1 width.1
    obtain ⟨t, rfl⟩ := List.length_eq_one_iff.1 width.2
    obtain ⟨k, left⟩ := s.toInt64?_ok
    obtain ⟨m, right⟩ := t.toInt64?_ok
    simp only [addPartial, left, right, count.injEq]
    rw [Int64.add_assoc, Int64.add_comm (.ofInt _), ← Int64.add_assoc]
  | extremum greatest type best =>
    obtain ⟨s, rfl⟩ := List.length_eq_one_iff.1 width.1
    obtain ⟨t, rfl⟩ := List.length_eq_one_iff.1 width.2
    simp only [addPartial, offerExtremum_eq]
    cases left : s.isNull with
    | true => rfl
    | false =>
      cases right : t.isNull with
      | true => rfl
      | false =>
        have decided := @decisive_beats [(0, s), (0, t)] greatest type
          (by simpa [Takes] using takes) s (by simp [filled, left, right]) t
          (by simp [filled, left, right])
        simp [choose_comm (ranking_beats greatest) decided]
  | valueAt position scan type found =>
    obtain ⟨s, time, rfl⟩ := List.length_eq_two.1 width.1
    obtain ⟨s', time', rfl⟩ := List.length_eq_two.1 width.2
    let offer := fun s time => ((valueAt position scan type none).shareTime? [s, time]).map (·, s)
    have given : ∀ kept s time, ((valueAt position scan type kept).addPartial [s, time]).2 =
        valueAt position scan type ((offer s time).elim kept
          (choose (fun x y => position.prefers x.1 y.1) kept)) := by
      intro kept s time
      rw [addPartial_valueAt, ← shareTime?_reset, Option.elim_map]
      rfl
    rw [given, given, given, given, elim_choose_comm (ranking_valueAt position)]
    intro a left b right first second
    obtain ⟨t, mine, rfl⟩ := Option.map_eq_some_iff.1 left
    obtain ⟨u, theirs, rfl⟩ := Option.map_eq_some_iff.1 right
    obtain rfl := decisive_prefers position [t, u] t (by simp) u (by simp) first second
    have equal := apart rfl t ((shareTime?_reset _ _).symm.trans mine)
      ((shareTime?_reset _ _).symm.trans theirs)
    obtain ⟨rfl, -⟩ : s = s' ∧ time = time' := by simpa using equal
    rfl
  | timeAt position scan found =>
    obtain ⟨time, rfl⟩ := List.length_eq_one_iff.1 width.1
    obtain ⟨time', rfl⟩ := List.length_eq_one_iff.1 width.2
    have given : ∀ kept time, ((timeAt position scan kept).addPartial [time]).2 =
        timeAt position scan (((timeAt position scan none).shareTime? [time]).elim kept
          (choose position.prefers kept)) := by
      intro kept time
      rw [addPartial_timeAt, ← shareTime?_reset]
      rfl
    rw [given, given, given, given, elim_choose_comm position.ranking]
    intro t _ u _
    exact decisive_prefers position [t, u] t (by simp) u (by simp)

end Accumulator

/-- The rows of several blocks within a range, block by block. -/
def Block.rowsWithinAll (range : TimeRange) (blocks : List Block) : List Row :=
  blocks.flatMap fun block => block.rows.filter (Row.within range)

namespace Aggregator
variable {a : Aggregator} {types : List ScalarType} {scan : Scan} {rows : List Row}
  {blocks others : List Block}

/-- One more row: its value, or the partial result that it holds. -/
def take (a : Aggregator) (acc : Accumulator) (r : Row) : Accumulator :=
  if a.step.readsRows then acc.absorb (a.reading r) else (acc.addPartial (a.taking r)).2

def takeAll (a : Aggregator) (rows : List Row) : Aggregator :=
  { a with accumulator := rows.foldl a.take a.accumulator }

/-- The time that a row counts for: its own, or that of the partial result in it. -/
def mark? (a : Aggregator) (r : Row) : Option Timestamp :=
  if a.step.readsRows then some r.time else a.accumulator.shareTime? (a.taking r)

/-- An aggregator that can take in these rows in any order. -/
structure Sorts (rows : List Row) (a : Aggregator) : Prop where
  mergeable : a.accumulator.mergeable = true
  patient : a.step.readsRows = true → a.accumulator.hasty = false
  width : a.step.readsRows = false → a.inputs.length = a.accumulator.partialTypes.length
  takes : ∀ r ∈ rows, a.accumulator.Takes (r.cell a.column).type
  apart : a.accumulator.byTime = true → (rows.filterMap a.mark?).Nodup

theorem reset_take (acc : Accumulator) (r : Row) : (a.take acc r).reset = acc.reset := by
  unfold take
  split
  · exact Accumulator.reset_absorb _
  · exact Accumulator.reset_addPartial _ _

theorem takeAll_append (later : List Row) :
    (a.takeAll rows).takeAll later = a.takeAll (rows ++ later) := by
  rw [takeAll, takeAll, takeAll, List.foldl_append]
  rfl

theorem takeAll_rows (readsRows : a.step.readsRows = true) : a.takeAll rows = a.given rows := by
  have one : a.take = fun acc r => acc.absorb (a.reading r) := by
    funext acc r
    rw [take, if_pos readsRows]
  rw [takeAll, given, one, Accumulator.absorbAll, List.foldl_map]

theorem eq_of_mark? (apart : (rows.filterMap a.mark?).Nodup) {r s : Row} (left : r ∈ rows)
    (right : s ∈ rows) {t : Timestamp} (first : a.mark? r = some t) (second : a.mark? s = some t) :
    r = s := by
  by_contra different
  have pairs := List.pairwise_filterMap.1 apart
  have symmetric : Std.Symm fun r s => ∀ t, a.mark? r = some t → ∀ u, a.mark? s = some u → t ≠ u :=
    ⟨fun r s unlike t mine u other same => unlike u other t mine same.symm⟩
  exact pairs.forall left right different t first t second rfl

/-- Of rows that can be told apart any two can change places. -/
theorem Sorts.take_comm (sorts : a.Sorts rows) {acc : Accumulator}
    (same : acc.reset = a.accumulator.reset) {r s : Row} (left : r ∈ rows) (right : s ∈ rows) :
    a.take (a.take acc r) s = a.take (a.take acc s) r := by
  have mergeable : acc.mergeable = true := by
    rw [← Accumulator.mergeable_reset, same, Accumulator.mergeable_reset]
    exact sorts.mergeable
  have takes : ∀ r ∈ rows, acc.Takes (r.cell a.column).type := by
    intro r member
    rw [← Accumulator.takes_reset, same, Accumulator.takes_reset]
    exact sorts.takes r member
  have apart : acc.byTime = true → ∀ t, a.mark? r = some t → a.mark? s = some t → r = s := by
    rw [← Accumulator.byTime_reset, same, Accumulator.byTime_reset]
    exact fun byTime t => eq_of_mark? (sorts.apart byTime) left right
  cases readsRows : a.step.readsRows with
  | true =>
    have patient : acc.hasty = false := by
      rw [← Accumulator.hasty_reset, same, Accumulator.hasty_reset]
      exact sorts.patient readsRows
    simp only [take, mark?, readsRows, if_true] at apart ⊢
    refine Accumulator.absorb_comm mergeable patient ⟨takes r left, takes s right⟩ ?_
    intro byTime equal
    rw [apart byTime r.time rfl (congrArg some equal.symm)]
  | false =>
    have width : ∀ r, (a.taking r).length = acc.partialTypes.length := by
      intro r
      rw [taking, List.length_map, ← Accumulator.partialTypes_reset, same,
        Accumulator.partialTypes_reset]
      exact sorts.width readsRows
    have first : ∀ r ∈ rows, ∀ s ∈ (a.taking r).head?, acc.Takes s.type := by
      intro r member s head
      rw [taking, List.head?_map] at head
      obtain ⟨c, column, rfl⟩ := Option.map_eq_some_iff.1 head
      have read : a.column = c := by rw [Aggregator.column, List.headD_eq_head?_getD, column]; rfl
      exact read ▸ takes r member
    simp only [take, mark?, readsRows, Bool.false_eq_true, if_false] at apart ⊢
    refine Accumulator.addPartial_comm mergeable ⟨width r, width s⟩ ⟨first r left, first s right⟩ ?_
    intro byTime t mine other
    rw [← Accumulator.shareTime?_reset, same, Accumulator.shareTime?_reset] at mine other
    rw [apart byTime t mine other]

/-- Rows that can be told apart come to the same in any order. -/
theorem Sorts.takeAll_perm (sorts : a.Sorts rows) {later : List Row} (perm : rows.Perm later) :
    a.takeAll rows = a.takeAll later := by
  have keeps : ∀ acc : Accumulator, acc.reset = a.accumulator.reset → ∀ r ∈ rows,
      (a.take acc r).reset = a.accumulator.reset :=
    fun acc same r _ => (reset_take acc r).trans same
  have swap : ∀ acc : Accumulator, acc.reset = a.accumulator.reset → ∀ r ∈ rows, ∀ s ∈ rows,
      a.take (a.take acc r) s = a.take (a.take acc s) r :=
    fun acc same r left s right => sorts.take_comm same left right
  rw [takeAll, takeAll, foldl_perm perm keeps swap rfl]

/-- Blocks that are each taken in row by row. -/
theorem feedBlocks_takeAll (each : ∀ taken, ∀ block ∈ blocks, ∃ stop,
      (a.takeAll taken).feedBlock block =
        (.ok stop, (a.takeAll taken).takeAll (block.rows.filter (Row.within a.range)))) :
    a.feedBlocks blocks = (.ok (), a.takeAll (Block.rowsWithinAll a.range blocks)) := by
  have run : ∀ taken, (a.takeAll taken).feedBlocks blocks =
      (.ok (), a.takeAll (taken ++ Block.rowsWithinAll a.range blocks)) := by
    induction blocks with
    | nil =>
      intro taken
      rw [Block.rowsWithinAll, List.flatMap_nil, List.append_nil]
      rfl
    | cons block rest ih =>
      intro taken
      obtain ⟨stop, first⟩ := each taken block List.mem_cons_self
      have others := ih fun taken b member => each taken b (List.mem_cons_of_mem _ member)
      rw [feedBlocks, first, takeAll_append]
      refine (others _).trans ?_
      rw [Block.rowsWithinAll, Block.rowsWithinAll, List.flatMap_cons, List.append_assoc]
  exact run []

theorem feedBlocks_rows (same : ∀ block ∈ blocks, block.schema.types = types)
    (ordered : ∀ block ∈ blocks, scan.Ordered block.rows)
    (suits : ∀ block ∈ blocks, a.Suits types scan (block.rows.filter (Row.within a.range))) :
    a.feedBlocks blocks = (.ok (), a.takeAll (Block.rowsWithinAll a.range blocks)) := by
  refine feedBlocks_takeAll fun taken block member =>
    ⟨(Block.rowsWithin block.times a.range scan).2, ?_⟩
  have mine := suits block member
  rw [takeAll_rows mine.readsRows]
  rw [feedBlock_within (same block member) (ordered block member) mine.given]
  rw [takeAll_rows (a := a.given taken) mine.readsRows]
  rfl

theorem feedPartials_taking (readsPartials : a.step.readsRows = false)
    (mergeable : a.accumulator.mergeable = true)
    (width : a.inputs.length = a.accumulator.partialTypes.length) (rows : List Row) :
    a.feedPartials (rows.map a.taking) = (.ok (), a.takeAll rows) := by
  induction rows generalizing a with
  | nil => rfl
  | cons r rest ih =>
    have taken := Accumulator.addPartial_taken mergeable
      (show (a.taking r).length = _ from (List.length_map ..).trans width)
    have reset := Accumulator.reset_addPartial a.accumulator (a.taking r)
    have one : a.take a.accumulator r = (a.accumulator.addPartial (a.taking r)).2 := by
      simp [take, readsPartials]
    have others := ih (a := { a with accumulator := (a.accumulator.addPartial (a.taking r)).2 })
      readsPartials
      (by rwa [← Accumulator.mergeable_reset, reset, Accumulator.mergeable_reset])
      (by rwa [← Accumulator.partialTypes_reset, reset, Accumulator.partialTypes_reset])
    rw [List.map_cons, feedPartials, takeAll, List.foldl_cons, one]
    simp only [taken]
    exact others

theorem reset_takeAll (a : Aggregator) (rows : List Row) :
    (a.takeAll rows).accumulator.reset = a.accumulator.reset := by
  have run : ∀ acc : Accumulator, (rows.foldl a.take acc).reset = acc.reset := by
    induction rows with
    | nil => exact fun acc => rfl
    | cons r rest ih => exact fun acc => (ih _).trans (reset_take acc r)
  exact run a.accumulator

theorem feedBlocks_shares (same : ∀ block ∈ blocks, block.schema.types = types)
    (ordered : ∀ block ∈ blocks, scan.Ordered block.rows) (collects : a.Collects types scan)
    (mergeable : a.accumulator.mergeable = true)
    (width : a.inputs.length = a.accumulator.partialTypes.length) :
    a.feedBlocks blocks = (.ok (), a.takeAll (Block.rowsWithinAll a.range blocks)) := by
  refine feedBlocks_takeAll fun taken block member =>
    ⟨(Block.rowsWithin block.times a.range scan).2, ?_⟩
  have reset := reset_takeAll a taken
  have still : (a.takeAll taken).Collects types scan :=
    ⟨collects.readsPartials, collects.bound, collects.sameScan⟩
  have fed := (a.takeAll taken).feedPartials_taking collects.readsPartials
    (by rwa [← Accumulator.mergeable_reset, reset, Accumulator.mergeable_reset])
    (by rwa [← Accumulator.partialTypes_reset, reset, Accumulator.partialTypes_reset])
    (block.rows.filter (Row.within a.range))
  rw [feedBlock_partials (same block member) (ordered block member) still]
  exact congrArg (fun step : Attempt Aggregator Unit => (step.1.map fun () => _, step.2)) fed

theorem feedBlocks_missing (same : ∀ block ∈ blocks, block.schema.types = types)
    (ordered : ∀ block ∈ blocks, a.scan.Ordered block.rows) {column : Nat}
    (missing : a.inputs.find? (types.length ≤ ·) = some column) :
    a.feedBlocks blocks =
      (if Block.rowsWithinAll a.range blocks = [] then .ok ()
        else .error (.malformedBlock (.missingColumn a.name column types.length)), a) := by
  induction blocks with
  | nil => rfl
  | cons block rest ih =>
    have others := ih (fun b member => same b (List.mem_cons_of_mem _ member))
      (fun b member => ordered b (List.mem_cons_of_mem _ member))
    rw [Block.rowsWithinAll] at others ⊢
    rw [List.flatMap_cons, feedBlocks, feedBlock_missing (same block List.mem_cons_self)
      (ordered block List.mem_cons_self) missing]
    by_cases none : block.rows.filter (Row.within a.range) = []
    · simp only [if_pos none]
      rw [none, List.nil_append]
      exact others
    · simp only [if_neg none]
      rw [if_neg (by simp [none])]

theorem mark?_enter (a : Aggregator) (range : TimeRange) : (a.enter range).mark? = a.mark? := by
  funext r
  exact if_congr Iff.rfl rfl (Accumulator.shareTime?_reset ..)

def isHasty (a : Aggregator) : Bool := a.step.readsRows && a.accumulator.hasty

section
variable {spec : AggregationSpec} {schema : Schema} {range : TimeRange}

theorem suits_within (created : create spec schema scan = .ok a)
    (readsRows : spec.step.readsRows = true)
    (merges : spec.kind ≠ .sum ∧ spec.kind ≠ .avg ∧ spec.kind ≠ .extreme)
    (ordered : ∀ block ∈ blocks, scan.Ordered block.rows)
    (apart : spec.kind = .firstValue ∨ spec.kind = .lastValue →
      ((Block.rowsWithinAll range blocks).filterMap a.mark?).Nodup) :
    ∀ block ∈ blocks,
      (a.enter range).Suits schema.types scan (block.rows.filter (Row.within range)) := by
  obtain ⟨_, _, _, _, step, _⟩ := of_create created
  have marks : a.mark? = fun r => some r.time := by
    funext r
    rw [mark?, step, if_pos readsRows]
  intro block member
  apply Suits.enter
  apply suits_of_create created readsRows ⟨merges.1, merges.2.1⟩
    (List.Pairwise.filter _ (ordered block member))
  intro positional
  have all := apart positional
  rw [marks, List.filterMap_eq_map'] at all
  have part := List.sublist_flatten_of_mem (List.mem_map_of_mem (f := fun b : Block =>
    b.rows.filter (Row.within range)) member)
  exact List.pairwise_map.1 (all.sublist (part.map _))

theorem feedBlocks_of_create (created : create spec schema scan = .ok a)
    (merges : spec.kind ≠ .sum ∧ spec.kind ≠ .avg ∧ spec.kind ≠ .extreme)
    (same : ∀ block ∈ blocks, block.schema.types = schema.types)
    (ordered : ∀ block ∈ blocks, scan.Ordered block.rows)
    (apart : spec.kind = .firstValue ∨ spec.kind = .lastValue →
      ((Block.rowsWithinAll range blocks).filterMap a.mark?).Nodup)
    (bound : ∀ c ∈ a.inputs, c < schema.types.length) :
    (a.enter range).feedBlocks blocks =
      (.ok (), (a.enter range).takeAll (Block.rowsWithinAll range blocks)) := by
  obtain ⟨field, _, fresh, _, step, _, sameScan, width⟩ := of_create created
  cases readsRows : spec.step.readsRows with
  | true => exact feedBlocks_rows same ordered (suits_within created readsRows merges ordered apart)
  | false =>
    have collects : (a.enter range).Collects schema.types scan :=
      ⟨by rw [← readsRows, ← step]; rfl, bound, sameScan⟩
    refine feedBlocks_shares same ordered collects ?_ ?_
    · exact (Accumulator.mergeable_reset _).trans (Accumulator.mergeable_of_create fresh merges)
    · rw [readsRows] at width
      exact width.trans (congrArg List.length (Accumulator.partialTypes_reset _)).symm

theorem sorts_of_create (created : create spec schema scan = .ok a)
    (merges : spec.kind ≠ .sum ∧ spec.kind ≠ .avg ∧ spec.kind ≠ .extreme)
    (patient : a.isHasty = false)
    (same : ∀ block ∈ blocks, block.schema.types = schema.types)
    (apart : spec.kind = .firstValue ∨ spec.kind = .lastValue →
      ((Block.rowsWithinAll range blocks).filterMap a.mark?).Nodup) :
    (a.enter range).Sorts (Block.rowsWithinAll range blocks) := by
  obtain ⟨field, found, fresh, _, step, _, _, width⟩ := of_create created
  constructor
  case mergeable =>
    exact (Accumulator.mergeable_reset _).trans (Accumulator.mergeable_of_create fresh merges)
  case patient =>
    intro readsRows
    rw [enter, Accumulator.hasty_reset]
    simpa [isHasty, show a.step.readsRows = true from readsRows] using patient
  case width =>
    intro readsPartials
    rw [← step, show a.step.readsRows = false from readsPartials] at width
    exact width.trans (congrArg List.length (Accumulator.partialTypes_reset _)).symm
  case takes =>
    intro r member
    obtain ⟨block, listed, inside⟩ := List.mem_flatMap.1 member
    have types := (block.row_types r (List.mem_of_mem_filter inside)).trans (same block listed)
    obtain ⟨bound, rfl⟩ := List.getElem?_eq_some_iff.1 found
    have type : (r.cell a.column).type = schema[a.column].type := by
      rw [r.cell_type a.column (by rw [types]; simpa [Schema.types] using bound)]
      simp only [types, Schema.types, List.getElem_map]
    rw [show (a.enter range).column = a.column from rfl, type]
    exact Accumulator.takes_reset.2 (Accumulator.takes_of_create fresh)
  case apart =>
    intro byTime
    rw [mark?_enter]
    exact apart (Accumulator.byTime_of_create fresh
      ((Accumulator.byTime_reset _).symm.trans byTime))

/-- Blocks in another order: where every row is taken in, this makes no difference. -/
theorem feedBlocks_perm (created : create spec schema scan = .ok a)
    (merges : spec.kind ≠ .sum ∧ spec.kind ≠ .avg ∧ spec.kind ≠ .extreme)
    (patient : a.isHasty = false)
    (same : ∀ block ∈ blocks, block.schema.types = schema.types)
    (ordered : ∀ block ∈ blocks, scan.Ordered block.rows)
    (apart : spec.kind = .firstValue ∨ spec.kind = .lastValue →
      ((Block.rowsWithinAll range blocks).filterMap a.mark?).Nodup)
    (perm : blocks.Perm others) :
    (a.enter range).feedBlocks others = (a.enter range).feedBlocks blocks := by
  have rows : (Block.rowsWithinAll range blocks).Perm (Block.rowsWithinAll range others) :=
    perm.flatMap_right _
  have same' : ∀ block ∈ others, block.schema.types = schema.types :=
    fun block member => same block (perm.mem_iff.2 member)
  have ordered' : ∀ block ∈ others, scan.Ordered block.rows :=
    fun block member => ordered block (perm.mem_iff.2 member)
  cases missing : a.inputs.find? (schema.types.length ≤ ·) with
  | some column =>
    obtain ⟨_, _, _, _, _, _, rfl, _⟩ := of_create created
    have empty : Block.rowsWithinAll range others = [] ↔ Block.rowsWithinAll range blocks = [] :=
      ⟨fun none => (none ▸ rows).eq_nil, fun none => (none ▸ rows.symm).eq_nil⟩
    rw [feedBlocks_missing (a := a.enter range) same' ordered' missing,
      feedBlocks_missing (a := a.enter range) same ordered missing]
    exact congrArg (·, a.enter range) (if_congr empty rfl rfl)
  | none =>
    have bound : ∀ c ∈ a.inputs, c < schema.types.length := by
      simpa using List.find?_eq_none.1 missing
    have apart' : spec.kind = .firstValue ∨ spec.kind = .lastValue →
        ((Block.rowsWithinAll range others).filterMap a.mark?).Nodup :=
      fun positional => (rows.filterMap _).nodup_iff.1 (apart positional)
    rw [feedBlocks_of_create created merges same' ordered' apart' bound,
      feedBlocks_of_create created merges same ordered apart bound,
      (sorts_of_create created merges patient same apart).takeAll_perm rows]

end

end Aggregator

namespace MergeStage
variable {blocks others : List Block}

/-- A round that merges partial results does not depend on which child comes first. -/
theorem feedAll_perm {specs : List AggregationSpec} {fresh : List Aggregator} {schema : Schema}
    {scan : Scan} {range : TimeRange}
    (created : List.Forall₂ (fun spec a => Aggregator.create spec schema scan = .ok a) specs fresh)
    (partials : ∀ spec ∈ specs, spec.step.readsRows = false)
    (merges : ∀ spec ∈ specs, spec.kind ≠ .sum ∧ spec.kind ≠ .avg ∧ spec.kind ≠ .extreme)
    (same : ∀ block ∈ blocks, block.schema.types = schema.types)
    (ordered : ∀ block ∈ blocks, scan.Ordered block.rows)
    (apart : ∀ a ∈ fresh, a.kind = .firstValue ∨ a.kind = .lastValue →
      ((Block.rowsWithinAll range blocks).filterMap a.mark?).Nodup)
    (perm : blocks.Perm others) :
    feedAll others (enterAll fresh range) = feedAll blocks (enterAll fresh range) := by
  apply feedAll_congr
  intro entered member
  obtain ⟨a, listed, rfl⟩ := List.mem_map.1 member
  obtain ⟨spec, inside, made⟩ := exists_left created listed
  obtain ⟨_, _, _, kind, step, _⟩ := Aggregator.of_create made
  have patient : a.isHasty = false := by
    rw [Aggregator.isHasty, step, partials spec inside, Bool.false_and]
  exact Aggregator.feedBlocks_perm made (merges spec inside) patient same ordered
    (fun positional => apart a listed (kind ▸ positional)) perm

end MergeStage
end WindowFold
