import WindowFold.Proofs.Feeding
import WindowFold.Proofs.Merging

/-! Aggregators of partial results. Of each block an aggregator takes the
columns that hold its partial result, row by row. -/
namespace WindowFold.Aggregator
variable {a : Aggregator} {types : List ScalarType} {scan : Scan}

/-- What of a row is read as a partial result. -/
def taking (a : Aggregator) (r : Row) : List Scalar := a.inputs.map r.cell

/-- An aggregator of partial results in columns that there are. -/
structure Collects (types : List ScalarType) (scan : Scan) (a : Aggregator) : Prop where
  readsPartials : a.step.readsRows = false
  bound : ∀ c ∈ a.inputs, c < types.length
  sameScan : a.scan = scan

private theorem filterMap_columns {block : Block} {inputs : List Nat}
    (bound : ∀ c ∈ inputs, c < block.schema.length) (i : Nat) (inside : i < block.rows.length) :
    (inputs.filterMap block.column?).filterMap (·.scalar? i) = inputs.map block.rows[i].cell := by
  rw [List.filterMap_filterMap, ← List.filterMap_eq_map]
  refine List.filterMap_congr fun c member => ?_
  obtain ⟨column, read, _, scalars⟩ := block.column?_eq c (bound c member)
  have cell : column.scalar? i = column.scalars[i]? := by simp [Column.scalar?, Column.scalars]
  simp only [read, Option.bind_some, cell, scalars, List.getElem?_map,
    List.getElem?_eq_getElem inside, Option.map_some]
  rfl

theorem feedRows_partials {block : Block} (same : block.schema.types = types)
    (collects : a.Collects types scan) (start stop : Nat) :
    a.feedRows block start stop =
      a.feedPartials ((block.extract start (stop - start)).rows.map a.taking) := by
  have width : block.schema.length = types.length := by simp [← same, Schema.types]
  rw [feedRows]
  split
  next none =>
    rw [Block.rows_extract, Nat.sub_eq_zero_of_le none, List.take_zero]
    rfl
  next =>
    have found : a.inputs.find? (block.columnCount ≤ ·) = none := by
      rw [List.find?_eq_none, Block.columnCount_eq, width]
      intro c member
      simpa using collects.bound c member
    have bound : ∀ c ∈ a.inputs, c < (block.extract start (stop - start)).schema.length := by
      rw [Block.schema_extract, width]
      exact collects.bound
    simp only [found, collects.readsPartials, Bool.false_eq_true, if_false]
    congr 1
    apply List.ext_getElem
    · simp [Block.rowCount_eq]
    · intro i inside _
      have row : i < (block.extract start (stop - start)).rows.length := by
        simpa [Block.rowCount_eq] using inside
      rw [List.getElem_map, List.getElem_map, List.getElem_range, filterMap_columns bound i row]
      rfl

/-- Of a block in scan order the partial results within the window are taken in. -/
theorem feedBlock_partials {block : Block} (same : block.schema.types = types)
    (ordered : scan.Ordered block.rows) (collects : a.Collects types scan) :
    a.feedBlock block =
      (((a.feedPartials ((block.rows.filter (Row.within a.range)).map a.taking)).1.map fun () =>
        (Block.rowsWithin block.times a.range scan).2),
      (a.feedPartials ((block.rows.filter (Row.within a.range)).map a.taking)).2) := by
  rw [feedBlock, collects.sameScan]
  simp only [feedRows_partials same collects, Block.rows_extract_rowsWithin block a.range ordered]

/-- A block with one row in the window: the partial result of an accumulator
over some rows. -/
structure Bears (types : List ScalarType) (scan : Scan) (a : Aggregator) (block : Block)
    (part : Accumulator × List (Timestamp × Scalar)) : Prop where
  types : block.schema.types = types
  ordered : scan.Ordered block.rows
  taken : (block.rows.filter (Row.within a.range)).map a.taking = [part.1.partialResult]
  reflects : part.1.Reflects part.2
  same : part.1.reset = a.accumulator.reset

/-- Fed with partial results, the aggregator reflects the rows of all of them. -/
theorem feedBlocks_partials {blocks : List Block}
    {parts : List (Accumulator × List (Timestamp × Scalar))}
    (bears : List.Forall₂ (Bears types scan a) blocks parts) (collects : a.Collects types scan)
    {seen : List (Timestamp × Scalar)} (reflects : a.accumulator.Reflects seen)
    (distinguishes : a.accumulator.Distinguishes (seen ++ parts.flatMap (·.2))) :
    ∃ merged, a.feedBlocks blocks = (.ok (), { a with accumulator := merged }) ∧
      merged.Reflects (seen ++ parts.flatMap (·.2)) ∧ merged.reset = a.accumulator.reset := by
  induction blocks generalizing a parts seen with
  | nil =>
    cases bears
    exact ⟨a.accumulator, rfl, by simpa using reflects, rfl⟩
  | cons block blocks ih =>
    cases bears with
    | @cons _ part _ parts first later =>
    rw [List.flatMap_cons, ← List.append_assoc] at distinguishes
    obtain ⟨merged, added, all, same⟩ := Accumulator.reflects_addPartial reflects first.reflects
      first.same.symm (distinguishes.fewer (List.sublist_append_left _ _))
    have fed : a.feedPartials ((block.rows.filter (Row.within a.range)).map a.taking) =
        (.ok (), { a with accumulator := merged }) := by
      rw [first.taken, feedPartials, added]
      rfl
    have still : List.Forall₂ (Bears types scan { a with accumulator := merged }) blocks parts :=
      later.imp fun _ _ bears =>
        ⟨bears.types, bears.ordered, bears.taken, bears.reflects, bears.same.trans same.symm⟩
    have apart : merged.Distinguishes (seen ++ part.2 ++ parts.flatMap (·.2)) := by
      rw [← Accumulator.distinguishes_reset, same, Accumulator.distinguishes_reset]
      exact distinguishes
    obtain ⟨last, further, reflected, reset⟩ := ih still
      ⟨collects.readsPartials, collects.bound, collects.sameScan⟩ all apart
    refine ⟨last, ?_, ?_, reset.trans same⟩
    · rw [feedBlocks, feedBlock_partials first.types first.ordered collects, fed]
      exact further
    · rw [List.flatMap_cons, ← List.append_assoc]
      exact reflected

end WindowFold.Aggregator
