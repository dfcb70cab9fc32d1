import WindowFold.Operator.WindowStage
import WindowFold.Proofs.Typing

/-! Aggregators over rows. What an aggregator takes from a block is what its
accumulator makes of the rows of the block within the window. -/
namespace WindowFold

namespace Accumulator
variable {acc : Accumulator}

theorem Separable.sublist {rows fewer : List (Timestamp × Scalar)} (separable : acc.Separable rows)
    (part : List.Sublist fewer rows) : acc.Separable fewer := by
  cases acc with
  | valueAt => exact List.Pairwise.sublist part separable
  | timeAt => exact List.Pairwise.sublist part separable
  | count | sum | avg | extremum | extreme => trivial

variable {type : ScalarType} {taken : List (Timestamp × Scalar)}

theorem byRow_absorbAll : (acc.absorbAll taken).byRow = acc.byRow := by
  rw [← byRow_reset, reset_absorbAll, byRow_reset]

theorem bySize_absorbAll : (acc.absorbAll taken).bySize = acc.bySize := by
  rw [← bySize_reset, reset_absorbAll, bySize_reset]

theorem takes_absorbAll : (acc.absorbAll taken).Takes type ↔ acc.Takes type := by
  rw [← takes_reset, reset_absorbAll, takes_reset]

theorem resultType_absorbAll : (acc.absorbAll taken).resultType = acc.resultType := by
  rw [← resultType_reset, reset_absorbAll, resultType_reset]

theorem partialTypes_absorbAll : (acc.absorbAll taken).partialTypes = acc.partialTypes := by
  rw [← partialTypes_reset, reset_absorbAll, partialTypes_reset]

theorem separable_absorbAll {rows : List (Timestamp × Scalar)} :
    (acc.absorbAll taken).Separable rows ↔ acc.Separable rows := by
  rw [← separable_reset, reset_absorbAll, separable_reset]

section
variable {kind : AggregationKind} {scan : Scan}

theorem byRow_of_create (created : create kind type scan = .ok acc)
    (rowwise : kind ≠ .sum ∧ kind ≠ .avg) : acc.byRow = true := by
  unfold create at created
  split at created
  · contradiction
  cases created
  cases kind <;> simp_all [byRow]

theorem numeric_of_create (created : create kind type scan = .ok acc)
    (bySize : acc.bySize = true) : type.isNumeric = true := by
  unfold create at created
  split at created
  · contradiction
  next numbers =>
  cases created
  cases kind <;> simp_all [Accumulator.bySize, AggregationKind.needsNumbers]

theorem reset_of_create (created : create kind type scan = .ok acc) : acc.reset = acc := by
  unfold create at created
  split at created
  · contradiction
  cases created
  cases kind <;> rfl

theorem separable_of_create {rows : List (Timestamp × Scalar)}
    (created : create kind type scan = .ok acc)
    (ordered : rows.Pairwise fun x y => scan.inOrder x.1 y.1 = true)
    (apart : kind = .firstValue ∨ kind = .lastValue → rows.Pairwise fun x y => x.1 ≠ y.1) :
    acc.Separable rows := by
  unfold create at created
  split at created
  · contradiction
  cases created
  cases kind with
  | firstValue => exact ordered.and (apart (.inl rfl))
  | lastValue => exact ordered.and (apart (.inr rfl))
  | minTime | maxTime => exact ordered
  | count | sum | avg | extreme | minValue | maxValue => trivial

end
end Accumulator

namespace Aggregator
variable {a : Aggregator} {types : List ScalarType} {scan : Scan} {rows : List Row}

/-- The column that rows are read from. -/
def column (a : Aggregator) : Nat := a.inputs.headD 0

/-- What of a row is read. -/
def reading (a : Aggregator) (r : Row) : Timestamp × Scalar := (r.time, r.cell a.column)

/-- The aggregator once it has taken in rows. -/
def given (a : Aggregator) (rows : List Row) : Aggregator :=
  { a with accumulator := a.accumulator.absorbAll (rows.map a.reading) }

/-- An aggregator of rows with these column types, all in scan order, and such
that it does not matter how they are cut. -/
structure Suits (types : List ScalarType) (scan : Scan) (rows : List Row) (a : Aggregator) :
    Prop where
  readsRows : a.step.readsRows = true
  inputs : a.inputs = [a.column]
  bound : a.column < types.length
  sameScan : a.scan = scan
  byRow : a.accumulator.byRow = true
  numeric : a.accumulator.bySize = true → types[a.column].isNumeric = true
  takes : a.accumulator.Takes types[a.column]
  separable : a.accumulator.Separable (rows.map a.reading)

@[simp] theorem given_nil (a : Aggregator) : a.given [] = a := rfl

theorem given_append (a : Aggregator) (first later : List Row) :
    (a.given first).given later = a.given (first ++ later) := by
  rw [given, given, given, List.map_append, Accumulator.absorbAll_append]
  rfl

/-- A settled aggregator has seen enough. -/
theorem given_settled (settled : a.isSettled = true) (rows : List Row) : a.given rows = a := by
  rw [given, Accumulator.absorbAll_settled settled]

theorem given_enter (a : Aggregator) (range : TimeRange) (rows : List Row) :
    (a.given rows).enter range = a.enter range := by
  simp [given, enter]

theorem enter_enter (a : Aggregator) (first range : TimeRange) :
    (a.enter first).enter range = a.enter range := by
  simp [enter]

theorem outputTypes_given (a : Aggregator) (rows : List Row) :
    (a.given rows).outputTypes = a.outputTypes := by
  rw [outputTypes, outputTypes, given, Accumulator.resultType_absorbAll,
    Accumulator.partialTypes_absorbAll]

theorem isSettled_enter (a : Aggregator) (range : TimeRange) :
    (a.enter range).isSettled = false := by
  rw [isSettled, enter]
  cases a.accumulator <;> rfl

theorem outputTypes_enter (a : Aggregator) (range : TimeRange) :
    (a.enter range).outputTypes = a.outputTypes := by
  simp [outputTypes, enter]

theorem Suits.fewer {fewer : List Row} (suits : a.Suits types scan rows)
    (part : List.Sublist fewer rows) : a.Suits types scan fewer :=
  { suits with separable := suits.separable.sublist (part.map a.reading) }

theorem Suits.given {taken : List Row} (suits : a.Suits types scan rows) :
    (a.given taken).Suits types scan rows where
  readsRows := suits.readsRows
  inputs := suits.inputs
  bound := suits.bound
  sameScan := suits.sameScan
  byRow := Accumulator.byRow_absorbAll.trans suits.byRow
  numeric bySize := suits.numeric (Accumulator.bySize_absorbAll.symm.trans bySize)
  takes := Accumulator.takes_absorbAll.2 suits.takes
  separable := Accumulator.separable_absorbAll.2 suits.separable

theorem Suits.enter (suits : a.Suits types scan rows) (range : TimeRange) :
    (a.enter range).Suits types scan rows where
  readsRows := suits.readsRows
  inputs := suits.inputs
  bound := suits.bound
  sameScan := suits.sameScan
  byRow := (Accumulator.byRow_reset a.accumulator).trans suits.byRow
  numeric bySize := suits.numeric ((Accumulator.bySize_reset a.accumulator).symm.trans bySize)
  takes := Accumulator.takes_reset.2 suits.takes
  separable := Accumulator.separable_reset.2 suits.separable

/-- What the rows have in the column is of a type that the aggregator is for. -/
theorem Suits.typed {taken : List Row} (suits : a.Suits types scan rows)
    (same : ∀ r ∈ taken, r.types = types) (typed : a.accumulator.Typed) :
    (a.given taken).accumulator.Typed := by
  refine typed.absorbAll fun reading member => ?_
  obtain ⟨r, inside, rfl⟩ := List.mem_map.1 member
  have bound := suits.bound
  have type : (r.cell a.column).type = types[a.column] := by
    simp only [← same r inside]
    exact r.cell_type _ (by rw [same r inside]; exact bound)
  rw [reading, type]
  exact suits.takes

/-- Some rows of a block are taken in as such. -/
theorem feedRows_eq {block : Block} (same : block.schema.types = types) (start stop : Nat)
    (suits : a.Suits types scan (block.extract start (stop - start)).rows) :
    a.feedRows block start stop = (.ok (), a.given (block.extract start (stop - start)).rows) := by
  have width : block.schema.length = types.length := by simp [← same, Schema.types]
  unfold feedRows
  split
  next none =>
    have empty : (block.extract start (stop - start)).rows = [] := by
      rw [Block.rows_extract, Nat.sub_eq_zero_of_le none, List.take_zero]
    rw [empty, given_nil]
  next =>
    have found : a.inputs.find? (block.columnCount ≤ ·) = none := by
      rw [suits.inputs, Block.columnCount_eq, width]
      simpa using suits.bound
    have bound : a.column < (block.extract start (stop - start)).schema.length := by
      rw [Block.schema_extract, width]
      exact suits.bound
    obtain ⟨column, read, type, scalars⟩ := Block.column?_eq _ a.column bound
    have columns : a.inputs.filterMap (block.extract start (stop - start)).column? = [column] := by
      rw [suits.inputs]
      simp [read]
    have paired : (block.extract start (stop - start)).times.zip column.scalars =
        (block.extract start (stop - start)).rows.map a.reading := by
      rw [scalars, ← Block.map_time_rows, List.zip_map']
      rfl
    have inside := suits.bound
    have sort : column.type = types[a.column] := by
      rw [type]
      simp only [Block.schema_extract, ← same, Schema.types, List.getElem_map]
    have added := Accumulator.addRows_eq suits.byRow
      (block.extract start (stop - start)).times column
      (by simp [scalars]) (by rw [sort]; exact suits.numeric)
        (by rw [paired]; exact suits.separable)
    simp only [found, columns, suits.readsRows, if_true, added, paired]
    rfl

/-- Of a block in scan order the rows within the window are taken in. -/
theorem feedBlock_within {block : Block} (same : block.schema.types = types)
    (ordered : scan.Ordered block.rows)
    (suits : a.Suits types scan (block.rows.filter (Row.within a.range))) :
    a.feedBlock block = (.ok (Block.rowsWithin block.times a.range scan).2,
      a.given (block.rows.filter (Row.within a.range))) := by
  have inside := Block.rows_extract_rowsWithin block a.range ordered
  rw [← inside] at suits
  have fed := feedRows_eq same _ _ suits
  rw [inside] at fed
  rw [feedBlock, suits.sameScan]
  simp only [fed]
  rfl

theorem feedBlock_eq {block : Block} (same : block.schema.types = types)
    (ordered : scan.Ordered block.rows) (suits : a.Suits types scan block.rows) :
    a.feedBlock block = (.ok (Block.rowsWithin block.times a.range scan).2,
      a.given (block.rows.filter (Row.within a.range))) :=
  feedBlock_within same ordered (suits.fewer List.filter_sublist)

/-- It is made for the first column that it reads, if it reads as many as it needs. -/
theorem create_eq_ok {spec : AggregationSpec} {schema : Schema} :
    create spec schema scan = .ok a ↔
      ∃ first others field accumulator, spec.inputs = first :: others ∧
        schema[first]? = some field ∧
        Accumulator.create spec.kind field.type scan = .ok accumulator ∧
        spec.inputs.length =
          (if spec.step.readsRows then 1 else accumulator.partialTypes.length) ∧
        a = ⟨spec.name.getD (spec.kind.name ++ "(" ++ field.name ++ ")"), spec.kind, spec.step,
          spec.inputs, accumulator, scan, .always⟩ := by
  constructor
  · intro created
    unfold create at created
    split at created
    · contradiction
    next first others inputs =>
    split at created
    · contradiction
    next field found =>
    split at created
    · contradiction
    next accumulator fresh =>
    by_cases width : spec.inputs.length =
        if spec.step.readsRows then 1 else accumulator.partialTypes.length
    · rw [if_neg (not_not.2 width)] at created
      exact ⟨first, others, field, accumulator, inputs, found, fresh, width,
        (Except.ok.inj created).symm⟩
    · rw [if_pos width] at created
      contradiction
  · rintro ⟨first, others, field, accumulator, inputs, found, fresh, width, rfl⟩
    rw [create, inputs]
    simp only [found, fresh]
    rw [← inputs, if_neg (not_not.2 width)]

/-- Whence a new aggregator has its parts. -/
theorem of_create {spec : AggregationSpec} {schema : Schema}
    (created : create spec schema scan = .ok a) :
    ∃ field, schema[a.column]? = some field ∧
      Accumulator.create spec.kind field.type scan = .ok a.accumulator ∧
      a.kind = spec.kind ∧ a.step = spec.step ∧ a.inputs = spec.inputs ∧ a.scan = scan ∧
      a.inputs.length = if spec.step.readsRows then 1 else a.accumulator.partialTypes.length := by
  obtain ⟨first, others, field, accumulator, inputs, found, fresh, width, rfl⟩ :=
    create_eq_ok.1 created
  refine ⟨field, ?_, fresh, rfl, rfl, rfl, rfl, width⟩
  rw [column, inputs]
  exact found

/-- An aggregator of rows reads one column, and is made for its type. -/
theorem of_create_rows {spec : AggregationSpec} {schema : Schema}
    (created : create spec schema scan = .ok a) (readsRows : spec.step.readsRows = true) :
    a.step.readsRows = true ∧ a.inputs = [a.column] ∧ a.scan = scan ∧
      ∃ bound : a.column < schema.types.length,
        Accumulator.create spec.kind schema.types[a.column] scan = .ok a.accumulator := by
  obtain ⟨field, found, fresh, _, step, _, sameScan, width⟩ := of_create created
  obtain ⟨bound, rfl⟩ := List.getElem?_eq_some_iff.1 found
  rw [if_pos readsRows] at width
  obtain ⟨input, only⟩ := List.length_eq_one_iff.1 width
  refine ⟨step ▸ readsRows, by simp [column, only], sameScan,
    by simpa [Schema.types] using bound, ?_⟩
  simpa [Schema.types] using fresh

/-- A new aggregator of rows, for a function that takes in rows one by one. -/
theorem suits_of_create {spec : AggregationSpec} {schema : Schema}
    (created : create spec schema scan = .ok a) (readsRows : spec.step.readsRows = true)
    (rowwise : spec.kind ≠ .sum ∧ spec.kind ≠ .avg) (ordered : scan.Ordered rows)
    (apart : spec.kind = .firstValue ∨ spec.kind = .lastValue →
      rows.Pairwise fun r s => r.time ≠ s.time) :
    a.Suits schema.types scan rows := by
  obtain ⟨reads, inputs, sameScan, bound, fresh⟩ := of_create_rows created readsRows
  refine ⟨reads, inputs, bound, sameScan, Accumulator.byRow_of_create fresh rowwise,
    Accumulator.numeric_of_create fresh, Accumulator.takes_of_create fresh, ?_⟩
  refine Accumulator.separable_of_create fresh (List.pairwise_map.2 ordered) fun places => ?_
  exact List.pairwise_map.2 (apart places)

end Aggregator

/-- Every aggregator that is not settled takes the rows of the window; the
settled ones would not change. -/
theorem WindowStage.feedOpen_eq {types : List ScalarType} {scan : Scan} {range : TimeRange}
    {block : Block} (same : block.schema.types = types) (ordered : scan.Ordered block.rows)
    {aggregators : List Aggregator}
    (suit : ∀ a ∈ aggregators, a.Suits types scan block.rows ∧ a.range = range) :
    feedOpen block aggregators =
      (.ok (if aggregators.all (·.isSettled) then 0
        else (Block.rowsWithin block.times range scan).2),
        aggregators.map (·.given (block.rows.filter (Row.within range)))) := by
  induction aggregators with
  | nil => rfl
  | cons a rest ih =>
    obtain ⟨suits, entered⟩ := suit a List.mem_cons_self
    have later := ih fun b member => suit b (List.mem_cons_of_mem _ member)
    rw [feedOpen]
    by_cases settled : a.isSettled = true
    · rw [if_pos settled, later, List.map_cons, Aggregator.given_settled settled]
      simp [settled]
    · rw [if_neg settled, Aggregator.feedBlock_eq same ordered suits, later, entered, List.map_cons]
      simp only [List.all_cons, settled, Bool.false_and]
      split <;> simp [Except.map]

end WindowFold
