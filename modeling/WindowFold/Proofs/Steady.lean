import WindowFold.Proofs.Rounds

/-! Aggregators of either kind over blocks of the right types. Whatever such a block
brings, the aggregator stays the same but for its values; one that reads rows takes
in any of them. -/
namespace WindowFold

namespace Accumulator
variable {acc after : Accumulator} {times : List Timestamp} {values : Column}

/-- Reads its values as numbers. -/
def numbers : Accumulator → Bool
  | sum _ | avg _ _ | extreme _ _ => true
  | _ => false

@[simp] theorem numbers_reset (acc : Accumulator) : acc.reset.numbers = acc.numbers := by
  cases acc <;> rfl

theorem numeric_of_numbers {kind : AggregationKind} {type : ScalarType} {scan : Scan}
    (created : create kind type scan = .ok acc) (numbers : acc.numbers = true) :
    type.isNumeric = true := by
  unfold create at created
  split at created
  · contradiction
  next able =>
  cases created
  cases kind <;> simp_all [Accumulator.numbers, AggregationKind.needsNumbers]

/-- Can be settled by the rows of a window. -/
def maySettle : Accumulator → Bool
  | valueAt position scan _ _ | timeAt position scan _ => position.leads scan
  | _ => false

@[simp] theorem maySettle_reset (acc : Accumulator) : acc.reset.maySettle = acc.maySettle := by
  cases acc <;> rfl

theorem maySettle_of_settled (settled : acc.isSettled = true) : acc.maySettle = true := by
  cases acc with
  | valueAt | timeAt => exact (Bool.and_eq_true_iff.1 settled).2
  | count | sum | avg | extremum | extreme => cases settled

theorem mem_foldl_offerExtremum {greatest : Bool} {best : Option Scalar} {scalars : List Scalar}
    {s : Scalar} (member : s ∈ scalars.foldl (offerExtremum greatest) best) :
    s ∈ best ∨ s ∈ scalars := by
  induction scalars generalizing best with
  | nil => exact .inl member
  | cons first rest ih =>
    rcases ih member with kept | later
    · rw [offerExtremum_eq] at kept
      split at kept
      · exact .inl kept
      · rcases mem_choose kept with before | rfl
        · exact .inl before
        · exact .inr List.mem_cons_self
    · exact .inr (List.mem_cons_of_mem _ later)

theorem mem_foldl_offerExtreme {best : Option (Binary64 × Scalar)} {p : Binary64 × Scalar}
    {pairs : List (Option Binary64 × Scalar)}
    (member : p ∈ pairs.foldl (fun best (cell, s) =>
      if s.isNull then best else offerExtreme best (cell.getD .zero) s) best) :
    p ∈ best ∨ p.2 ∈ pairs.map (·.2) := by
  induction pairs generalizing best with
  | nil => exact .inl member
  | cons first rest ih =>
    obtain ⟨cell, s⟩ := first
    rcases ih member with kept | later
    · dsimp only at kept
      split at kept
      · exact .inl kept
      · rw [offerExtreme_eq] at kept
        rcases mem_choose kept with before | rfl
        · exact .inl before
        · exact .inr List.mem_cons_self
    · exact .inr (List.mem_cons_of_mem _ later)

/-- Rows change the values alone. -/
theorem reset_addRows (added : acc.addRows times values = .ok after) :
    after.reset = acc.reset := by
  cases acc <;> simp only [addRows] at added
  all_goals repeat' split at added
  all_goals cases added
  all_goals rfl

theorem mem_of_pickTimed {position : Position} {scan : Scan} {time : Timestamp} {s : Scalar}
    (picked : pickTimed position scan times values = .ok (some (time, s))) :
    s ∈ values.scalars := by
  rw [pickTimed] at picked
  split at picked
  · cases picked
  next row t found =>
  split at picked
  · cases picked
    obtain ⟨p, there, same⟩ := Option.map_eq_some_iff.1 found
    obtain ⟨_, rfl⟩ := Prod.mk.inj same
    have inside : p ∈ values.scalars.zipIdx := by
      split at there
      · exact List.mem_of_mem_filter (List.mem_of_head? there)
      · exact List.mem_of_mem_filter (List.mem_of_getLast? there)
    exact List.fst_mem_of_mem_zipIdx inside
  · cases picked

/-- Rows of the type that the accumulator is for leave it typed. -/
theorem Typed.addRows (typed : acc.Typed) (takes : acc.Takes values.type)
    (added : acc.addRows times values = .ok after) : after.Typed := by
  have sort : ∀ s ∈ values.scalars, s.type = values.type := by
    intro s member
    obtain ⟨_, _, rfl⟩ := List.mem_map.1 member
    rfl
  cases acc with
  | count | sum | avg | timeAt =>
    simp only [Accumulator.addRows] at added
    repeat' split at added
    all_goals cases added
    all_goals trivial
  | extremum greatest type best =>
    cases added
    intro s member
    rcases mem_foldl_offerExtremum member with before | new
    · exact typed s before
    · exact (sort s new).trans takes
  | extreme type best =>
    simp only [Accumulator.addRows] at added
    split at added
    · cases added
    next cells _ =>
    cases added
    intro p member
    rcases mem_foldl_offerExtreme member with before | new
    · exact typed p before
    · obtain ⟨q, paired, same⟩ := List.mem_map.1 new
      rw [← same]
      exact (sort q.2 (List.of_mem_zip paired).2).trans takes
  | valueAt position scan type found =>
    simp only [Accumulator.addRows] at added
    split at added
    · cases added
      exact typed
    split at added
    · cases added
    · cases added
      exact typed
    next time s picked =>
      cases added
      intro p member
      rw [offerValue_eq position found (time, s)] at member
      rcases mem_choose member with before | rfl
      · exact typed p before
      · exact (sort s (mem_of_pickTimed picked)).trans takes

/-- Numbers are read from numbers, and every value has a time: no row is refused. -/
theorem addRows_ok (same : times.length = values.scalars.length)
    (numeric : acc.numbers = true → values.type.isNumeric = true) :
    ∃ after, acc.addRows times values = .ok after := by
  cases acc with
  | count | extremum => exact ⟨_, rfl⟩
  | sum total =>
    rw [addRows, ScalarType.convertCells_numeric (numeric rfl)]
    dsimp only
    split <;> exact ⟨_, rfl⟩
  | avg | extreme =>
    rw [addRows, ScalarType.convertCells_numeric (numeric rfl)]
    exact ⟨_, rfl⟩
  | valueAt position scan type found =>
    rw [addRows, pickTimed_eq position scan same]
    split
    · exact ⟨_, rfl⟩
    · split
      · contradiction
      · exact ⟨_, rfl⟩
      · exact ⟨_, rfl⟩
  | timeAt position scan found =>
    rw [addRows, pickTimed_eq position scan same]
    split
    · exact ⟨_, rfl⟩
    · split
      · contradiction
      · exact ⟨_, rfl⟩
      · exact ⟨_, rfl⟩

end Accumulator

namespace Aggregator
variable {a b : Aggregator} {types : List ScalarType} {scan : Scan} {block : Block}

/-- An aggregator of rows, of any function, that was made for rows of these types. -/
structure Reads (types : List ScalarType) (scan : Scan) (a : Aggregator) : Prop where
  readsRows : a.step.readsRows = true
  inputs : a.inputs = [a.column]
  sameScan : a.scan = scan
  bound : a.column < types.length
  numeric : a.accumulator.numbers = true → types[a.column].isNumeric = true
  takes : a.accumulator.Takes types[a.column]

theorem Reads.of_keeps (reads : a.Reads types scan) (keeps : Keeps a b) : b.Reads types scan := by
  have bound := reads.bound
  have numeric : b.accumulator.numbers = true → types[a.column].isNumeric = true := by
    rw [← Accumulator.numbers_reset, keeps.reset, Accumulator.numbers_reset]
    exact reads.numeric
  have takes : b.accumulator.Takes types[a.column] := by
    rw [← Accumulator.takes_reset, keeps.reset, Accumulator.takes_reset]
    exact reads.takes
  rw [keeps.same]
  exact ⟨reads.readsRows, reads.inputs, reads.sameScan, reads.bound, numeric, takes⟩

/-- No row of a block is refused. -/
theorem Reads.feedRows (reads : a.Reads types scan) (same : block.schema.types = types)
    (start stop : Nat) : ∃ b, a.feedRows block start stop = (.ok (), b) ∧ Keeps a b := by
  have width : block.schema.length = types.length := by simp [← same, Schema.types]
  rw [Aggregator.feedRows]
  split
  · exact ⟨a, rfl, .refl a⟩
  have found : a.inputs.find? (block.columnCount ≤ ·) = none := by
    rw [reads.inputs, Block.columnCount_eq, width]
    simpa using reads.bound
  have bound : a.column < (block.extract start (stop - start)).schema.length := by
    rw [Block.schema_extract, width]
    exact reads.bound
  obtain ⟨column, read, type, scalars⟩ := Block.column?_eq _ a.column bound
  have columns : a.inputs.filterMap (block.extract start (stop - start)).column? = [column] := by
    rw [reads.inputs]
    simp [read]
  have inside := reads.bound
  have sort : column.type = types[a.column] := by
    rw [type]
    simp only [Block.schema_extract, ← same, Schema.types, List.getElem_map]
  have same : (block.extract start (stop - start)).times.length = column.scalars.length := by
    simp [scalars]
  have numeric : a.accumulator.numbers = true → column.type.isNumeric = true := by
    rw [sort]
    exact reads.numeric
  obtain ⟨after, added⟩ := Accumulator.addRows_ok same numeric
  have takes : a.accumulator.Takes column.type := sort ▸ reads.takes
  simp only [found, columns, reads.readsRows, if_true, added]
  exact ⟨_, rfl, rfl, Accumulator.reset_addRows added, fun typed => typed.addRows takes added⟩

theorem Reads.feedBlock (reads : a.Reads types scan) (same : block.schema.types = types) :
    ∃ stop b, a.feedBlock block = (.ok stop, b) ∧ Keeps a b := by
  obtain ⟨b, fed, keeps⟩ := reads.feedRows same (Block.rowsWithin block.times a.range a.scan).1
    (Block.rowsWithin block.times a.range a.scan).2
  refine ⟨(Block.rowsWithin block.times a.range a.scan).2, b, ?_, keeps⟩
  rw [Aggregator.feedBlock]
  simp only [fed]
  rfl

theorem reads_of_create {spec : AggregationSpec} {schema : Schema}
    (created : create spec schema scan = .ok a) (readsRows : spec.step.readsRows = true) :
    a.Reads schema.types scan := by
  obtain ⟨reads, inputs, sameScan, bound, fresh⟩ := of_create_rows created readsRows
  exact ⟨reads, inputs, sameScan, bound, Accumulator.numeric_of_numbers fresh,
    Accumulator.takes_of_create fresh⟩

/-- An aggregator of either kind that was made for rows of these types. -/
def Steady (types : List ScalarType) (scan : Scan) (a : Aggregator) : Prop :=
  a.Reads types scan ∨ a.Gathers types scan

theorem Steady.sameScan (steady : a.Steady types scan) : a.scan = scan :=
  steady.elim (·.sameScan) (·.sameScan)

theorem Steady.of_keeps (steady : a.Steady types scan) (keeps : Keeps a b) : b.Steady types scan :=
  steady.imp (·.of_keeps keeps) (·.of_keeps keeps)

theorem Reads.enter (reads : a.Reads types scan) (range : TimeRange) :
    (a.enter range).Reads types scan :=
  { reads with
    numeric := fun numbers =>
      reads.numeric ((Accumulator.numbers_reset a.accumulator).symm.trans numbers)
    takes := Accumulator.takes_reset.2 reads.takes }

theorem Steady.enter (steady : a.Steady types scan) (range : TimeRange) :
    (a.enter range).Steady types scan := steady.imp (·.enter range) (·.enter range)

/-- A block changes the values alone. -/
theorem Steady.keeps_feedBlock (steady : a.Steady types scan) (same : block.schema.types = types)
    (ordered : scan.Ordered block.rows) : Keeps a (a.feedBlock block).2 := by
  rcases steady with reads | gathers
  · obtain ⟨stop, b, fed, keeps⟩ := reads.feedBlock same
    rw [fed]
    exact keeps
  · rw [gathers.feedBlock_eq same ordered]
    exact gathers.keeps_feedTyped _
      fun r inside => (block.row_types r (List.mem_of_mem_filter inside)).trans same

theorem steady_of_create {spec : AggregationSpec} {schema : Schema}
    (created : create spec schema scan = .ok a) : a.Steady schema.types scan := by
  cases step : spec.step.readsRows with
  | true => exact .inl (reads_of_create created step)
  | false => exact .inr (gathers_of_create created step)

/-- Where the rows after the window begin does not depend on the aggregator. -/
theorem stop_of_feedBlock {stop : Nat} (fed : a.feedBlock block = (.ok stop, b)) :
    stop = (Block.rowsWithin block.times a.range a.scan).2 := by
  rw [feedBlock] at fed
  dsimp only at fed
  rcases rows : a.feedRows block (Block.rowsWithin block.times a.range a.scan).1
    (Block.rowsWithin block.times a.range a.scan).2 with ⟨e | _, c⟩
  · rw [rows] at fed
    cases fed
  · rw [rows] at fed
    cases fed
    rfl

/-- Without rows in the window no column is read. -/
theorem feedBlock_outside (ordered : a.scan.Ordered block.rows)
    (none : block.rows.filter (Row.within a.range) = []) :
    a.feedBlock block = (.ok (Block.rowsWithin block.times a.range a.scan).2, a) := by
  have count := Block.length_rowsWithin block a.range ordered
  rw [none, List.length_nil] at count
  rw [feedBlock]
  simp only [feedRows, if_pos (Nat.le_of_sub_eq_zero count)]
  rfl

/-- A column that is read is not there. -/
def misses (a : Aggregator) (block : Block) : Bool := a.inputs.any (block.columnCount ≤ ·)

theorem Keeps.misses (keeps : Keeps a b) : b.misses = a.misses := by
  rw [keeps.same]
  rfl

theorem misses_enter (a : Aggregator) (range : TimeRange) : (a.enter range).misses = a.misses := rfl

/-- Rows in the window are refused where a column is missing. -/
theorem feedBlock_misses (missing : a.misses block = true) (ordered : a.scan.Ordered block.rows)
    (some : block.rows.filter (Row.within a.range) ≠ []) :
    ∃ e, a.feedBlock block = (.error e, a) := by
  obtain ⟨column, listed, short⟩ := List.any_eq_true.1 missing
  rcases found : a.inputs.find? (block.columnCount ≤ ·) with _ | first
  · exact absurd short (List.find?_eq_none.1 found column listed)
  have width : block.columnCount = block.schema.types.length := by
    rw [Block.columnCount_eq, Schema.types, List.length_map]
  rw [width] at found
  rw [feedBlock_missing rfl ordered found, if_neg some]
  exact ⟨_, rfl⟩

end Aggregator

namespace WindowStage
variable {aggregators after : List Aggregator} {types : List ScalarType} {scan : Scan}
  {block : Block} {range : TimeRange}

theorem keeps_feedOpen (steady : ∀ a ∈ aggregators, a.Steady types scan)
    (same : block.schema.types = types) (ordered : scan.Ordered block.rows) :
    List.Forall₂ Aggregator.Keeps aggregators (feedOpen block aggregators).2 := by
  induction aggregators with
  | nil => exact .nil
  | cons a rest ih =>
    have first := (steady a List.mem_cons_self).keeps_feedBlock same ordered
    have others := ih fun b member => steady b (List.mem_cons_of_mem _ member)
    rw [feedOpen]
    split
    · exact .cons (.refl a) others
    split
    next fed =>
      rw [fed] at first
      exact .cons first (List.forall₂_same.2 fun b _ => .refl b)
    next fed =>
      rw [fed] at first
      exact .cons first others

/-- Aggregators of rows take in any block. -/
theorem feedOpen_ok (reads : ∀ a ∈ aggregators, a.Reads types scan)
    (same : block.schema.types = types) :
    ∃ stop after, feedOpen block aggregators = (.ok stop, after) := by
  induction aggregators with
  | nil => exact ⟨0, [], rfl⟩
  | cons a rest ih =>
    obtain ⟨stop, after, later⟩ := ih fun b member => reads b (List.mem_cons_of_mem _ member)
    obtain ⟨own, b, fed, _⟩ := (reads a List.mem_cons_self).feedBlock same
    rw [feedOpen, later, fed]
    dsimp only
    split
    · exact ⟨_, _, rfl⟩
    · exact ⟨_, _, rfl⟩

/-- The aggregators have entered a window. -/
def Within (range : TimeRange) (scan : Scan) (aggregators : List Aggregator) : Prop :=
  ∀ a ∈ aggregators, a.range = range ∧ a.scan = scan

theorem stop_of_feedOpen (within : Within range scan aggregators) {stop : Nat}
    (fed : feedOpen block aggregators = (.ok stop, after)) :
    stop = if aggregators.all (·.isSettled) then 0
      else (Block.rowsWithin block.times range scan).2 := by
  induction aggregators generalizing stop after with
  | nil =>
    cases fed
    rfl
  | cons a rest ih =>
    obtain ⟨rfl, rfl⟩ := within a List.mem_cons_self
    have others : Within a.range a.scan rest := fun b member =>
      within b (List.mem_cons_of_mem _ member)
    rw [feedOpen] at fed
    rcases later : feedOpen block rest with ⟨outcome, bs⟩
    rw [later] at fed
    by_cases settled : a.isSettled = true
    · rw [if_pos settled] at fed
      cases fed
      rw [ih others later, List.all_cons, settled, Bool.true_and]
    · rw [if_neg settled] at fed
      rcases first : a.feedBlock block with ⟨e | own, b⟩
      · rw [first] at fed
        cases fed
      · rw [first] at fed
        obtain ⟨same, rfl⟩ := Prod.mk.inj fed
        obtain ⟨far, rfl, larger⟩ := map_eq_ok.1 same
        rw [Aggregator.stop_of_feedBlock first, ih others later] at larger
        rw [← larger, List.all_cons, Bool.eq_false_of_not_eq_true settled, Bool.false_and,
          if_neg Bool.false_ne_true]
        split <;> simp

/-- Without rows in the window nothing changes. -/
theorem feedOpen_outside (within : Within range scan aggregators)
    (ordered : scan.Ordered block.rows) (none : block.rows.filter (Row.within range) = []) :
    ∃ stop, feedOpen block aggregators = (.ok stop, aggregators) := by
  induction aggregators with
  | nil => exact ⟨0, rfl⟩
  | cons a rest ih =>
    obtain ⟨rfl, rfl⟩ := within a List.mem_cons_self
    obtain ⟨stop, later⟩ := ih fun b member => within b (List.mem_cons_of_mem _ member)
    rw [feedOpen, later, Aggregator.feedBlock_outside ordered none]
    dsimp only
    split
    · exact ⟨_, rfl⟩
    · exact ⟨_, rfl⟩

/-- The first aggregator that is not settled misses a column of the block, whichever
of them are settled. -/
def bars (block : Block) : List Aggregator → Bool
  | [] => true
  | a :: rest => a.misses block && (!a.accumulator.maySettle || bars block rest)

/-- A block that is barred fails at once if it has rows in the window, and changes
nothing. -/
theorem feedOpen_barred (within : Within range scan aggregators) (ordered : scan.Ordered block.rows)
    (some : block.rows.filter (Row.within range) ≠ []) (barred : bars block aggregators = true)
    (open_ : aggregators.all (·.isSettled) = false) :
    ∃ e, feedOpen block aggregators = (.error e, aggregators) := by
  induction aggregators with
  | nil => cases open_
  | cons a rest ih =>
    obtain ⟨rfl, rfl⟩ := within a List.mem_cons_self
    rw [bars, Bool.and_eq_true, Bool.or_eq_true, Bool.not_eq_true'] at barred
    obtain ⟨missing, others⟩ := barred
    rw [feedOpen]
    by_cases settled : a.isSettled = true
    · have may : a.accumulator.maySettle = true := Accumulator.maySettle_of_settled settled
      rw [List.all_cons, settled, Bool.true_and] at open_
      obtain ⟨e, failed⟩ := ih (fun b member => within b (List.mem_cons_of_mem _ member))
        (others.resolve_left (by simp [may])) open_
      rw [if_pos settled, failed]
      exact ⟨e, rfl⟩
    · obtain ⟨e, failed⟩ := Aggregator.feedBlock_misses missing ordered some
      rw [if_neg settled, failed]
      exact ⟨e, rfl⟩

theorem bars_of_columnCount {other : Block} (width : other.columnCount = block.columnCount)
    (aggregators : List Aggregator) : bars other aggregators = bars block aggregators := by
  induction aggregators with
  | nil => rfl
  | cons a rest ih => rw [bars, bars, ih, Aggregator.misses, Aggregator.misses, width]

theorem bars_congr (same : List.Forall₂ (fun a b => b.misses = a.misses ∧
      b.accumulator.maySettle = a.accumulator.maySettle) aggregators after) :
    bars block after = bars block aggregators := by
  induction same with
  | nil => rfl
  | cons first _ ih => rw [bars, bars, first.1, first.2, ih]

end WindowStage
end WindowFold
