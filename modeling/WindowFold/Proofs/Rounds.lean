import WindowFold.Operator.MergeStage
import WindowFold.Proofs.Closing

/-! The rounds of a merge, one for each window, apart from the calls in which they
are made. In a round every child that has not come to its end holds a block, and
of that the rows within the window are used. -/
namespace WindowFold

namespace Aggregator
variable {a : Aggregator} {types : List ScalarType} {scan : Scan} {rows : List Row}
  {block : Block} {blocks : List Block}

/-- An aggregator of partial results that was made for rows of these types. Of its
columns the first is there, the others need not be. -/
structure Gathers (types : List ScalarType) (scan : Scan) (a : Aggregator) : Prop where
  readsPartials : a.step.readsRows = false
  sameScan : a.scan = scan
  first : a.inputs.head? = some a.column
  bound : a.column < types.length
  takes : a.accumulator.Takes types[a.column]

/-- Takes in rows of these types. Where a column is missing, any row is refused. -/
def feedTyped (a : Aggregator) (types : List ScalarType) (rows : List Row) :
    Attempt Aggregator Unit :=
  match a.inputs.find? (types.length ≤ ·) with
  | some column =>
    (if rows = [] then .ok ()
      else .error (.malformedBlock (.missingColumn a.name column types.length)), a)
  | none => a.feedPartials (rows.map a.taking)

/-- Where a column is missing, a block with rows in the window is refused. -/
theorem feedBlock_missing (same : block.schema.types = types) (ordered : a.scan.Ordered block.rows)
    {column : Nat} (missing : a.inputs.find? (types.length ≤ ·) = some column) :
    a.feedBlock block =
      (if block.rows.filter (Row.within a.range) = [] then
        .ok (Block.rowsWithin block.times a.range a.scan).2
      else .error (.malformedBlock (.missingColumn a.name column types.length)), a) := by
  have width : block.columnCount = types.length := by
    rw [Block.columnCount_eq, ← same, Schema.types, List.length_map]
  have count := Block.length_rowsWithin block a.range ordered
  rw [feedBlock]
  by_cases none : block.rows.filter (Row.within a.range) = []
  · have outside : (Block.rowsWithin block.times a.range a.scan).2 ≤
        (Block.rowsWithin block.times a.range a.scan).1 := by
      rw [none, List.length_nil] at count
      omega
    simp only [feedRows, if_pos outside, if_pos none]
    rfl
  · have inside : ¬ (Block.rowsWithin block.times a.range a.scan).2 ≤
        (Block.rowsWithin block.times a.range a.scan).1 := by
      have := List.length_pos_of_ne_nil none
      omega
    simp only [feedRows, if_neg inside, if_neg none, width, missing]
    rfl

/-- Of a block in scan order the rows in the window are taken in. -/
theorem Gathers.feedBlock_eq (gathers : a.Gathers types scan) (same : block.schema.types = types)
    (ordered : scan.Ordered block.rows) :
    a.feedBlock block =
      ((a.feedTyped types (block.rows.filter (Row.within a.range))).1.map fun () =>
        (Block.rowsWithin block.times a.range scan).2,
      (a.feedTyped types (block.rows.filter (Row.within a.range))).2) := by
  rw [feedTyped]
  cases missing : a.inputs.find? (types.length ≤ ·) with
  | none =>
    have bound : ∀ c ∈ a.inputs, c < types.length := by simpa using List.find?_eq_none.1 missing
    exact feedBlock_partials same ordered ⟨gathers.readsPartials, bound, gathers.sameScan⟩
  | some column =>
    obtain rfl := gathers.sameScan
    rw [feedBlock_missing same ordered missing]
    by_cases none : block.rows.filter (Row.within a.range) = []
    · simp only [if_pos none]
      rfl
    · simp only [if_neg none]
      rfl

/-- The same aggregator, with other values of the right types. -/
structure Keeps (a b : Aggregator) : Prop where
  same : b = { a with accumulator := b.accumulator }
  reset : b.accumulator.reset = a.accumulator.reset
  typed : a.accumulator.Typed → b.accumulator.Typed

theorem Keeps.refl (a : Aggregator) : Keeps a a := ⟨rfl, rfl, id⟩

theorem Keeps.trans {b c : Aggregator} (first : Keeps a b) (second : Keeps b c) : Keeps a c where
  same := second.same.trans (by rw [first.same])
  reset := second.reset.trans first.reset
  typed := second.typed ∘ first.typed

theorem Keeps.enter {b : Aggregator} (keeps : Keeps a b) (range : TimeRange) :
    b.enter range = a.enter range := by
  rw [keeps.same, Aggregator.enter, Aggregator.enter, ← keeps.reset]

theorem Keeps.outputTypes {b : Aggregator} (keeps : Keeps a b) : b.outputTypes = a.outputTypes := by
  rw [keeps.same, Aggregator.outputTypes, Aggregator.outputTypes,
    ← Accumulator.resultType_reset b.accumulator, ← Accumulator.partialTypes_reset b.accumulator,
    keeps.reset, Accumulator.resultType_reset, Accumulator.partialTypes_reset]

theorem Gathers.of_keeps {b : Aggregator} (gathers : a.Gathers types scan) (keeps : Keeps a b) :
    b.Gathers types scan := by
  have bound := gathers.bound
  have takes : b.accumulator.Takes types[a.column] := by
    rw [← Accumulator.takes_reset, keeps.reset, Accumulator.takes_reset]
    exact gathers.takes
  rw [keeps.same]
  exact ⟨gathers.readsPartials, gathers.sameScan, gathers.first, gathers.bound, takes⟩

theorem keeps_feedPartials {parts : List (List Scalar)}
    (takes : ∀ columns ∈ parts, ∀ s ∈ columns.head?, a.accumulator.Takes s.type) :
    Keeps a (a.feedPartials parts).2 := by
  induction parts generalizing a with
  | nil => exact .refl a
  | cons columns rest ih =>
    have reset := Accumulator.reset_addPartial a.accumulator columns
    have one : Keeps a { a with accumulator := (a.accumulator.addPartial columns).2 } :=
      ⟨rfl, reset, fun typed => typed.addPartial (takes columns List.mem_cons_self)⟩
    rw [feedPartials]
    rcases added : (a.accumulator.addPartial columns).1 with e | _
    · simpa only [added] using one
    · simp only [added]
      apply one.trans
      apply ih
      intro other member s head
      change (a.accumulator.addPartial columns).2.Takes s.type
      rw [← Accumulator.takes_reset, reset, Accumulator.takes_reset]
      exact takes other (List.mem_cons_of_mem _ member) s head

theorem Gathers.keeps_feedTyped (gathers : a.Gathers types scan) (rows : List Row)
    (typed : ∀ r ∈ rows, r.types = types) : Keeps a (a.feedTyped types rows).2 := by
  rw [feedTyped]
  split
  · exact .refl a
  · apply keeps_feedPartials
    intro columns member s head
    obtain ⟨r, inside, rfl⟩ := List.mem_map.1 member
    rw [taking, List.head?_map, gathers.first] at head
    obtain rfl := Option.some.inj head
    have bound := gathers.bound
    rw [r.cell_type a.column (by rw [typed r inside]; exact bound)]
    simpa only [typed r inside] using gathers.takes

/-- Blocks of rows with these types, in scan order. -/
def Fit (types : List ScalarType) (scan : Scan) (blocks : List Block) : Prop :=
  ∀ block ∈ blocks, block.schema.types = types ∧ scan.Ordered block.rows

theorem Gathers.keeps_feedBlocks (gathers : a.Gathers types scan) (fit : Fit types scan blocks) :
    Keeps a (a.feedBlocks blocks).2 := by
  induction blocks generalizing a with
  | nil => exact .refl a
  | cons block rest ih =>
    obtain ⟨same, ordered⟩ := fit block List.mem_cons_self
    have one := gathers.keeps_feedTyped (block.rows.filter (Row.within a.range))
      fun r inside => (block.row_types r (List.mem_of_mem_filter inside)).trans same
    rw [feedBlocks, gathers.feedBlock_eq same ordered]
    rcases fed : a.feedTyped types (block.rows.filter (Row.within a.range)) with ⟨e | _, b⟩
    · rw [fed] at one
      exact one
    · rw [fed] at one
      exact one.trans (ih (gathers.of_keeps one) fun b member =>
        fit b (List.mem_cons_of_mem _ member))

/-- Only the rows in the window count. -/
theorem Gathers.feedBlocks_congr (gathers : a.Gathers types scan) {others : List Block}
    (fit : Fit types scan blocks) (fit' : Fit types scan others)
    (alike : List.Forall₂ (fun b c => b.rows.filter (Row.within a.range) =
      c.rows.filter (Row.within a.range)) blocks others) :
    a.feedBlocks blocks = a.feedBlocks others := by
  generalize window : a.range = range at alike
  induction alike generalizing a with
  | nil => rfl
  | @cons b c blocks others same _ ih =>
    obtain ⟨types_b, ordered_b⟩ := fit b List.mem_cons_self
    obtain ⟨types_c, ordered_c⟩ := fit' c List.mem_cons_self
    have one := gathers.keeps_feedTyped (b.rows.filter (Row.within a.range))
      fun r inside => (b.row_types r (List.mem_of_mem_filter inside)).trans types_b
    rw [← window] at same
    rw [feedBlocks, feedBlocks, gathers.feedBlock_eq types_b ordered_b,
      gathers.feedBlock_eq types_c ordered_c, ← same]
    rcases fed : a.feedTyped types (b.rows.filter (Row.within a.range)) with ⟨e | _, next⟩
    · rfl
    · have kept : Keeps a next := by rwa [fed] at one
      refine ih (gathers.of_keeps kept) (fun b member => fit b (List.mem_cons_of_mem _ member))
        (fun b member => fit' b (List.mem_cons_of_mem _ member)) ?_
      rw [kept.same]
      exact window

theorem Gathers.enter (gathers : a.Gathers types scan) (range : TimeRange) :
    (a.enter range).Gathers types scan :=
  { gathers with takes := Accumulator.takes_reset.2 gathers.takes }

theorem gathers_of_create {spec : AggregationSpec} {schema : Schema}
    (created : create spec schema scan = .ok a) (partials : spec.step.readsRows = false) :
    a.Gathers schema.types scan := by
  obtain ⟨field, found, fresh, _, step, inputs, sameScan, width⟩ := of_create created
  obtain ⟨bound, rfl⟩ := List.getElem?_eq_some_iff.1 found
  refine ⟨by rw [step]; exact partials, sameScan, ?_, by simpa [Schema.types] using bound, ?_⟩
  · rw [partials, if_neg (by simp)] at width
    have some : a.accumulator.partialTypes ≠ [] := by cases a.accumulator <;> nofun
    have filled : a.inputs ≠ [] := by
      intro none
      rw [none] at width
      exact some (List.length_eq_zero_iff.1 width.symm)
    obtain ⟨first, rest, columns⟩ := List.exists_cons_of_ne_nil filled
    rw [column, columns]
    rfl
  · have inside : a.column < schema.types.length := by simpa [Schema.types] using bound
    have type : schema.types[a.column] = schema[a.column].type := by
      simp only [Schema.types, List.getElem_map]
    rw [type]
    exact Accumulator.takes_of_create fresh

end Aggregator

theorem types_outputSchema (aggregators : List Aggregator) :
    Schema.types (outputSchema aggregators).tail = (aggregators.map (·.outputTypes)).flatten := by
  rw [outputSchema, List.tail_cons, Schema.types, List.map_flatMap, List.flatMap_def]
  exact congrArg List.flatten (List.map_congr_left fun a _ => a.outputFields_types)

/-- The aggregations of a window, with any values. -/
def Entered (fresh : List Aggregator) (range : TimeRange) (aggregators : List Aggregator) : Prop :=
  List.Forall₂ Aggregator.Keeps (enterAll fresh range) aggregators

section
variable {fresh aggregators after : List Aggregator} {range : TimeRange}

theorem entered_enterAll (fresh : List Aggregator) (range : TimeRange) :
    Entered fresh range (enterAll fresh range) := List.forall₂_same.2 fun a _ => .refl a

theorem Entered.trans (entered : Entered fresh range aggregators)
    (keeps : List.Forall₂ Aggregator.Keeps aggregators after) : Entered fresh range after := by
  unfold Entered at entered ⊢
  generalize enterAll fresh range = start at entered ⊢
  induction entered generalizing after with
  | nil =>
    cases keeps
    exact .nil
  | cons first _ ih =>
    cases keeps with
    | cons one others => exact .cons (first.trans one) (ih others)

theorem Entered.enterAll_eq (entered : Entered fresh range aggregators) (later : TimeRange) :
    enterAll aggregators later = enterAll fresh later := by
  rw [Entered, enterAll, List.forall₂_map_left_iff] at entered
  symm
  apply map_eq_map_iff.2
  apply entered.imp
  intro a b kept
  rw [kept.enter, Aggregator.enter_enter]

theorem Entered.typed (entered : Entered fresh range aggregators) :
    ∀ a ∈ aggregators, a.accumulator.Typed := by
  intro b member
  rw [Entered, enterAll, List.forall₂_map_left_iff] at entered
  obtain ⟨a, _, kept⟩ := exists_left entered member
  exact kept.typed (Accumulator.typed_reset _)

/-- The row of a window is of the announced types. -/
theorem Entered.outputRow_types (entered : Entered fresh range aggregators) :
    (outputRow aggregators).map (·.type) = Schema.types (outputSchema fresh).tail := by
  rw [WindowFold.outputRow_types entered.typed, types_outputSchema, types_outputSchema]
  rw [Entered, enterAll, List.forall₂_map_left_iff] at entered
  have columns : fresh.map (·.outputTypes) = aggregators.map (·.outputTypes) := by
    apply map_eq_map_iff.2
    apply entered.imp
    intro a b kept
    rw [kept.outputTypes, Aggregator.outputTypes_enter]
  rw [columns]

end

/-- What a merge has of one child: the rows that are held and the blocks to come. -/
structure Queue where
  held : Option Block
  coming : List Block

namespace Queue

/-- With the next block, unless there are rows left of the last one. -/
def fill (q : Queue) : Queue :=
  match q.held, q.coming with
  | none, block :: rest => ⟨some block, rest⟩
  | _, _ => q

/-- Without the rows up to the end of a range. -/
def skipPast (q : Queue) (range : TimeRange) (scan : Scan) : Queue :=
  { q with held := (q.held.map (·.skipPast range scan)).filter (!·.isEmpty) }

/-- Blocks of rows with these types, in scan order. -/
def Fit (types : List ScalarType) (scan : Scan) (q : Queue) : Prop :=
  Aggregator.Fit types scan (q.held.toList ++ q.coming)

@[simp] theorem fill_fill (q : Queue) : q.fill.fill = q.fill := by
  obtain ⟨_ | _, _ | _⟩ := q <;> rfl

variable {types : List ScalarType} {scan : Scan} {q : Queue}

theorem fit_nil : (Queue.mk none []).Fit types scan := fun _ member =>
  absurd member List.not_mem_nil

theorem Fit.fill (fit : q.Fit types scan) : q.fill.Fit types scan := by
  obtain ⟨_ | _, _ | _⟩ := q <;> exact fit

theorem Fit.skipPast (fit : q.Fit types scan) (range : TimeRange) :
    (q.skipPast range scan).Fit types scan := by
  intro block member
  rcases List.mem_append.1 member with held | coming
  · obtain ⟨same, _⟩ := Option.filter_eq_some_iff.1 (Option.mem_toList.1 held)
    obtain ⟨whole, there, rfl⟩ := Option.map_eq_some_iff.1 same
    obtain ⟨sort, ordered⟩ := fit whole (List.mem_append_left _ (Option.mem_toList.2 there))
    refine ⟨by rw [Block.skipPast, Block.schema_sliceFrom, sort], ?_⟩
    rw [Block.rows_skipPast]
    exact ordered.sublist (List.dropWhile_sublist _)
  · exact fit block (List.mem_append_right _ coming)

theorem fit_held {queues : List Queue} (fit : ∀ q ∈ queues, q.Fit types scan) :
    Aggregator.Fit types scan (queues.filterMap (·.held)) := by
  intro block member
  obtain ⟨q, inside, held⟩ := List.mem_filterMap.1 member
  exact fit q inside block (List.mem_append_left _ (Option.mem_toList.2 held))

end Queue

namespace MergeStage

/-- The rows of these windows, round by round. -/
def rounds (fresh : List Aggregator) (scan : Scan) :
    List Window → List Queue → Except Failure (List Row)
  | [], _ => .ok []
  | window :: coming, queues =>
    let filled := queues.map Queue.fill
    match feedAll (filled.filterMap (·.held)) (enterAll fresh window.range) with
    | (.error e, _) => .error e
    | (.ok (), aggregators) =>
      (rounds fresh scan coming (filled.map (·.skipPast window.range scan))).map
        (⟨window.outputTime, outputRow aggregators⟩ :: ·)

variable {types : List ScalarType} {scan : Scan} {fresh : List Aggregator} {blocks : List Block}

section
variable {window : Window} {coming : List Window} {queues : List Queue}
  {aggregators : List Aggregator}

theorem rounds_cons_error {e : Failure} (fed : feedAll ((queues.map Queue.fill).filterMap (·.held))
    (enterAll fresh window.range) = (.error e, aggregators)) :
    rounds fresh scan (window :: coming) queues = .error e := by
  simp only [rounds, fed]

theorem rounds_cons_ok (fed : feedAll ((queues.map Queue.fill).filterMap (·.held))
    (enterAll fresh window.range) = (.ok (), aggregators)) :
    rounds fresh scan (window :: coming) queues =
      (rounds fresh scan coming ((queues.map Queue.fill).map (·.skipPast window.range scan))).map
        (⟨window.outputTime, outputRow aggregators⟩ :: ·) := by
  simp only [rounds, fed]

end

theorem rounds_congr {windows : List Window} {queues others : List Queue}
    (same : queues.map Queue.fill = others.map Queue.fill) :
    rounds fresh scan windows queues = rounds fresh scan windows others := by
  cases windows with
  | nil => rfl
  | cons window coming => rw [rounds, rounds, same]

theorem feedAll_congr {aggregators : List Aggregator} {others : List Block}
    (alike : ∀ a ∈ aggregators, a.feedBlocks others = a.feedBlocks blocks) :
    feedAll others aggregators = feedAll blocks aggregators := by
  induction aggregators with
  | nil => rfl
  | cons a rest ih =>
    rw [feedAll, feedAll, alike a List.mem_cons_self,
      ih fun b member => alike b (List.mem_cons_of_mem _ member)]

theorem keeps_feedAll (gather : ∀ a ∈ fresh, a.Gathers types scan)
    (fit : Aggregator.Fit types scan blocks) :
    List.Forall₂ Aggregator.Keeps fresh (feedAll blocks fresh).2 := by
  induction fresh with
  | nil => exact .nil
  | cons a rest ih =>
    have first := (gather a List.mem_cons_self).keeps_feedBlocks fit
    have others := ih fun b member => gather b (List.mem_cons_of_mem _ member)
    rw [feedAll]
    rcases fed : a.feedBlocks blocks with ⟨e | _, b⟩
    · rw [fed] at first
      exact .cons first (List.forall₂_same.2 fun b _ => .refl b)
    · rw [fed] at first
      exact .cons first others

/-- What the blocks of a round leave behind does not matter to the next one, and
the row that they come to is of the announced types. -/
theorem feedAll_spec (gather : ∀ a ∈ fresh, a.Gathers types scan)
    (fit : Aggregator.Fit types scan blocks) (range : TimeRange) :
    (∀ later, enterAll (feedAll blocks (enterAll fresh range)).2 later = enterAll fresh later) ∧
      (outputRow (feedAll blocks (enterAll fresh range)).2).map (·.type) =
        Schema.types (outputSchema fresh).tail := by
  have entered : ∀ a ∈ enterAll fresh range, a.Gathers types scan := by
    intro a member
    obtain ⟨b, listed, rfl⟩ := List.mem_map.1 member
    exact (gather b listed).enter range
  have entered : Entered fresh range _ := keeps_feedAll entered fit
  exact ⟨entered.enterAll_eq, entered.outputRow_types⟩

end MergeStage
end WindowFold
