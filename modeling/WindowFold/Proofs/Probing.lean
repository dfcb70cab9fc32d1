import WindowFold.Proofs.Abiding

/-! A row that no aggregation refuses unless a column of it is missing, and what the first
call of a stage comes to where every child has such a row to give. -/
namespace WindowFold

/-- The value that stands for nothing. -/
def ScalarType.zero : (type : ScalarType) → type.Value
  | .boolean => false
  | .integer _ => (0 : Int)
  | .float32 => (.zero : Binary32)
  | .float64 => (.zero : Binary64)
  | .utf8 => ""
  | .date32 => (0 : Int)

/-- No date. Every other scalar can be read as a number. -/
def Scalar.Plain (s : Scalar) : Prop := s.type = .date32 → s.value = none

def Row.Plain (r : Row) : Prop := ∀ s ∈ r.values, s.Plain

theorem Scalar.Plain.toFloat64?_eq {s : Scalar} (plain : s.Plain) :
    ∃ x, s.toFloat64? = .ok x := by
  rw [Scalar.toFloat64?]
  split
  · exact ⟨_, rfl⟩
  split
  · exact ⟨_, rfl⟩
  next _ x value unlike =>
    cases type : s.type with
    | date32 => cases (plain type).symm.trans value
    | boolean | integer | float32 | float64 | utf8 =>
      rw [type] at unlike
      exact absurd rfl unlike

theorem Row.Plain.cell {r : Row} (plain : r.Plain) (column : Nat) : (r.cell column).Plain := by
  cases column with
  | zero =>
    intro type
    cases type
  | succ column =>
    rw [Row.cell, List.getD_eq_getElem?_getD]
    cases found : r.values[column]? with
    | none =>
      intro type
      cases type
    | some s => exact plain s (List.mem_of_getElem? found)

namespace Block

/-- There is a value in every row of a column that admits no nulls. -/
def NullFree (block : Block) : Prop :=
  ∀ s ∈ block.series, s.nullable = false → s.column.nullCount = 0

instance (block : Block) : Decidable block.NullFree :=
  inferInstanceAs (Decidable (∀ s ∈ block.series, s.nullable = false → s.column.nullCount = 0))

/-- One row under a schema, without a value wherever a column admits that. -/
def probe (schema : Schema) (time : Timestamp) : Block where
  timeName := (schema.headD timeField).name
  timeNullable := (schema.headD timeField).nullable
  times := [time]
  series := schema.tail.map fun field => ⟨field.name, field.nullable,
    ⟨field.type, [if field.nullable then none else some field.type.zero]⟩⟩
  aligned := by
    intro s member
    obtain ⟨field, _, rfl⟩ := List.mem_map.1 member
    rfl

variable {schema : Schema} {time : Timestamp}

theorem schema_probe (timed : schema.types.head? = some .int64) :
    (probe schema time).schema = schema := by
  cases schema with
  | nil => cases timed
  | cons first rest =>
    have type : first.type = .int64 := Option.some.inj timed
    have front : (⟨first.name, .int64, first.nullable⟩ : Field) = first := by rw [← type]
    have others : (probe (first :: rest) time).series.map Series.field = rest := by
      rw [probe]
      exact List.map_map.trans (List.map_id rest)
    exact List.cons_eq_cons.2 ⟨front, others⟩

theorem nullFree_probe : (probe schema time).NullFree := by
  intro s member
  obtain ⟨field, _, rfl⟩ := List.mem_map.1 member
  intro admits
  dsimp only at admits
  simp [Column.nullCount, admits]

theorem ordered_probe (scan : Scan) : scan.Ordered (probe schema time).rows :=
  List.pairwise_singleton _ _

theorem plain_probe (time : Timestamp)
    (dates : ∀ field ∈ schema, field.type = .date32 → field.nullable = true) :
    ∀ r ∈ (probe schema time).rows, r.Plain := by
  intro r member
  rw [List.mem_singleton.1 member]
  intro s cell type
  obtain ⟨series, listed, read⟩ := List.mem_filterMap.1 cell
  obtain ⟨field, inside, rfl⟩ := List.mem_map.1 listed
  cases read
  dsimp only at type ⊢
  rw [dates field (List.mem_of_mem_tail inside) type]
  rfl

/-- A block of one plain row in this range. -/
structure Probes (types : List ScalarType) (range : TimeRange) (block : Block) : Prop where
  same : block.schema.types = types
  row : ∃ r, block.rows = [r] ∧ r.Plain ∧ r.within range = true

theorem probes_probe {range : TimeRange} (timed : schema.types.head? = some .int64)
    (dates : ∀ field ∈ schema, field.type = .date32 → field.nullable = true)
    (inside : range.contains time = true) : (probe schema time).Probes schema.types range where
  same := congrArg Schema.types (schema_probe timed)
  row := ⟨_, rfl, plain_probe time dates _ List.mem_cons_self, inside⟩

namespace Probes
variable {types : List ScalarType} {range : TimeRange} {block : Block}

theorem ordered (probes : block.Probes types range) (scan : Scan) : scan.Ordered block.rows := by
  obtain ⟨r, rows, _⟩ := probes.row
  rw [rows]
  exact List.pairwise_singleton _ _

theorem plain (probes : block.Probes types range) : ∀ r ∈ block.rows, r.Plain := by
  obtain ⟨r, rows, plain, _⟩ := probes.row
  rw [rows]
  exact List.forall_mem_singleton.2 plain

theorem some (probes : block.Probes types range) :
    block.rows.filter (Row.within range) ≠ [] := by
  obtain ⟨r, rows, _, inside⟩ := probes.row
  rw [rows, List.filter_singleton, inside]
  exact List.cons_ne_nil _ _

theorem isEmpty_eq (probes : block.Probes types range) : block.isEmpty = false := by
  obtain ⟨r, rows, _⟩ := probes.row
  rw [← Bool.not_eq_true, Block.isEmpty_iff, rows]
  exact List.cons_ne_nil _ _

theorem skipTo (probes : block.Probes types range) (scan : Scan) :
    (block.skipTo range scan).Probes types range := by
  obtain ⟨r, rows, plain, inside⟩ := probes.row
  have reached : r.ahead range scan = false := by
    have within := inside
    rw [Row.within, range.contains_eq scan, Bool.and_eq_true, Bool.not_eq_true'] at within
    exact within.1
  constructor
  · rw [Block.schema_skipTo, probes.same]
  · refine ⟨r, ?_, plain, inside⟩
    rw [Block.rows_skipTo, rows, List.dropWhile_cons_of_neg (by simp [reached])]

end Probes
end Block

theorem Accumulator.addPartial_plain {acc : Accumulator} {columns : List Scalar}
    (width : columns.length = acc.partialTypes.length) (plain : ∀ s ∈ columns, s.Plain) :
    (acc.addPartial columns).1 = .ok () := by
  cases acc with
  | count n =>
    obtain ⟨s, rfl⟩ := List.length_eq_one_iff.1 width
    obtain ⟨k, read⟩ := s.toInt64?_ok
    simp only [addPartial, read]
  | sum total =>
    obtain ⟨s, rfl⟩ := List.length_eq_one_iff.1 width
    obtain ⟨x, read⟩ := (plain s List.mem_cons_self).toFloat64?_eq
    simp only [addPartial, read]
    cases x <;> rfl
  | avg rows total =>
    obtain ⟨n, s, rfl⟩ := List.length_eq_two.1 width
    obtain ⟨k, counted⟩ := n.toInt64?_ok
    obtain ⟨x, read⟩ := (plain s (by simp)).toFloat64?_eq
    simp only [addPartial, counted, read]
    split <;> rfl
  | extremum greatest type best =>
    obtain ⟨s, rfl⟩ := List.length_eq_one_iff.1 width
    rfl
  | extreme type best =>
    obtain ⟨s, rfl⟩ := List.length_eq_one_iff.1 width
    obtain ⟨x, read⟩ := (plain s List.mem_cons_self).toFloat64?_eq
    simp only [addPartial, read]
    cases x <;> rfl
  | valueAt position scan type found =>
    obtain ⟨s, time, rfl⟩ := List.length_eq_two.1 width
    rw [addPartial_valueAt]
  | timeAt position scan found =>
    obtain ⟨time, rfl⟩ := List.length_eq_one_iff.1 width
    rw [addPartial_timeAt]

namespace Aggregator
variable {a : Aggregator} {types : List ScalarType} {scan : Scan} {block : Block}
  {blocks : List Block}

/-- A column that it reads is not there. -/
def Lacks (types : List ScalarType) (a : Aggregator) : Prop := ∃ c ∈ a.inputs, types.length ≤ c

theorem feedPartials_plain {parts : List (List Scalar)}
    (width : ∀ columns ∈ parts, columns.length = a.accumulator.partialTypes.length)
    (plain : ∀ columns ∈ parts, ∀ s ∈ columns, s.Plain) : (a.feedPartials parts).1 = .ok () := by
  induction parts generalizing a with
  | nil => rfl
  | cons columns rest ih =>
    have added := Accumulator.addPartial_plain (width columns List.mem_cons_self)
      (plain columns List.mem_cons_self)
    have types : (a.accumulator.addPartial columns).2.partialTypes =
      a.accumulator.partialTypes := by
      rw [← Accumulator.partialTypes_reset, Accumulator.reset_addPartial,
        Accumulator.partialTypes_reset]
    rw [feedPartials]
    simp only [added]
    refine ih ?_ fun other member => plain other (List.mem_cons_of_mem _ member)
    intro other member
    rw [types]
    exact width other (List.mem_cons_of_mem _ member)

/-- Plain rows are taken in wherever every column is there. -/
theorem Able.feedBlock_plain (able : a.Able types scan) (same : block.schema.types = types)
    (ordered : scan.Ordered block.rows) (plain : ∀ r ∈ block.rows, r.Plain)
    (there : ¬ a.Lacks types) : ∃ stop, (a.feedBlock block).1 = .ok stop := by
  rcases able.steady with reads | gathers
  · obtain ⟨stop, b, fed, _⟩ := reads.feedBlock same
    exact ⟨stop, congrArg Prod.fst fed⟩
  · have found : a.inputs.find? (types.length ≤ ·) = none := by
      rw [List.find?_eq_none]
      intro c listed
      simpa using fun far => there ⟨c, listed, far⟩
    have fed : (a.feedPartials ((block.rows.filter (Row.within a.range)).map a.taking)).1 =
        .ok () := by
      apply feedPartials_plain
      · intro columns member
        obtain ⟨r, _, rfl⟩ := List.mem_map.1 member
        rw [taking, List.length_map]
        exact able.width gathers.readsPartials
      · intro columns member s cell
        obtain ⟨r, inside, rfl⟩ := List.mem_map.1 member
        obtain ⟨c, _, rfl⟩ := List.mem_map.1 cell
        exact (plain r (List.mem_of_mem_filter inside)).cell c
    rw [gathers.feedBlock_eq same ordered, feedTyped, found]
    simp only [fed]
    exact ⟨_, rfl⟩

theorem Able.feedBlocks_plain (able : a.Able types scan) (fit : Fit types scan blocks)
    (plain : ∀ b ∈ blocks, ∀ r ∈ b.rows, r.Plain) (there : ¬ a.Lacks types) :
    (a.feedBlocks blocks).1 = .ok () := by
  induction blocks generalizing a with
  | nil => rfl
  | cons block rest ih =>
    obtain ⟨same, ordered⟩ := fit block List.mem_cons_self
    obtain ⟨stop, fed⟩ := able.feedBlock_plain same ordered (plain block List.mem_cons_self) there
    have keeps := able.keeps_feedBlock same ordered
    rw [Aggregator.feedBlocks]
    simp only [fed]
    apply ih (able.of_keeps keeps) (fun other member => fit other (List.mem_cons_of_mem _ member))
      fun other member => plain other (List.mem_cons_of_mem _ member)
    rw [Lacks, keeps.same]
    exact there

/-- Rows in the window are refused wherever a column is missing. -/
theorem Able.feedBlock_lacking (able : a.Able types scan) (same : block.schema.types = types)
    (ordered : scan.Ordered block.rows) (some : block.rows.filter (Row.within a.range) ≠ [])
    (lacks : a.Lacks types) :
    ∃ cause, (a.feedBlock block).1 = .error (.malformedBlock cause) := by
  obtain ⟨c, listed, far⟩ := lacks
  rcases found : a.inputs.find? (types.length ≤ ·) with _ | first
  · exact absurd far (by simpa using List.find?_eq_none.1 found c listed)
  · rw [← able.steady.sameScan] at ordered
    rw [feedBlock_missing same ordered found, if_neg some]
    exact ⟨_, rfl⟩

end Aggregator

section
variable {fresh : List Aggregator} {types : List ScalarType} {scan : Scan} {range : TimeRange}
  {block : Block} {blocks : List Block}

/-- The first aggregator that lacks a column is the first to fail. -/
theorem WindowStage.feedOpen_lacking (able : ∀ a ∈ fresh, a.Able types scan)
    (probes : block.Probes types range) (lacks : ∃ a ∈ fresh, a.Lacks types) :
    ∃ cause, (feedOpen block (enterAll fresh range)).1 = .error (.malformedBlock cause) := by
  induction fresh with
  | nil => simp at lacks
  | cons a rest ih =>
    have entered := (able a List.mem_cons_self).enter range
    rw [enterAll, List.map_cons, feedOpen, if_neg (by simp [a.isSettled_enter])]
    by_cases own : a.Lacks types
    · obtain ⟨cause, fed⟩ :=
        entered.feedBlock_lacking probes.same (probes.ordered scan) probes.some own
      generalize (a.enter range).feedBlock block = outcome at fed
      obtain ⟨e, b⟩ := outcome
      cases fed
      exact ⟨cause, rfl⟩
    · obtain ⟨stop, fed⟩ :=
        entered.feedBlock_plain probes.same (probes.ordered scan) probes.plain own
      have later := ((List.exists_mem_cons_iff _ _ _).1 lacks).resolve_left own
      obtain ⟨cause, failed⟩ := ih (fun b member => able b (List.mem_cons_of_mem _ member)) later
      rw [enterAll] at failed
      generalize (a.enter range).feedBlock block = outcome at fed
      obtain ⟨e, b⟩ := outcome
      cases fed
      simp only [failed]
      exact ⟨cause, rfl⟩

theorem MergeStage.feedAll_lacking (able : ∀ a ∈ fresh, a.Able types scan)
    (probes : ∀ b ∈ block :: blocks, b.Probes types range) (lacks : ∃ a ∈ fresh, a.Lacks types) :
    ∃ cause, (feedAll (block :: blocks) (enterAll fresh range)).1 =
      .error (.malformedBlock cause) := by
  have first := probes block List.mem_cons_self
  induction fresh with
  | nil => simp at lacks
  | cons a rest ih =>
    have entered := (able a List.mem_cons_self).enter range
    rw [enterAll, List.map_cons, feedAll]
    by_cases own : a.Lacks types
    · obtain ⟨cause, fed⟩ :=
        entered.feedBlock_lacking first.same (first.ordered scan) first.some own
      rw [Aggregator.feedBlocks]
      generalize (a.enter range).feedBlock block = outcome at fed
      obtain ⟨e, b⟩ := outcome
      cases fed
      exact ⟨cause, rfl⟩
    · have fed := entered.feedBlocks_plain
        (fun b member => ⟨(probes b member).same, (probes b member).ordered scan⟩)
        (fun b member => (probes b member).plain) own
      have later := ((List.exists_mem_cons_iff _ _ _).1 lacks).resolve_left own
      obtain ⟨cause, failed⟩ := ih (fun b member => able b (List.mem_cons_of_mem _ member)) later
      rw [enterAll] at failed
      generalize (a.enter range).feedBlocks (block :: blocks) = outcome at fed
      obtain ⟨e, b⟩ := outcome
      cases fed
      exact ⟨cause, failed⟩

end

theorem Cursor.next?_start {series : WindowSeries} {scan : Scan} {window : Window}
    {coming : List Window} (windows : series.scanned scan = window :: coming) :
    ∃ cursor, (start series scan).next? = some (window, cursor) ∧ cursor.scan = scan := by
  have met := (start series scan).next?_spec
  rw [left_start, windows] at met
  obtain ⟨cursor, met, _, same⟩ := met
  exact ⟨cursor, met, same⟩

section
variable {σ : Type} {hasNext : σ → Except Failure Bool} {series : WindowSeries} {scan : Scan}
    {types : List ScalarType} {fresh : List Aggregator}
  {window : Window} {coming : List Window}

/-- A window that is refused the block that its child gives. -/
theorem WindowStage.resolve_refused {pull : σ → Attempt σ Answer} {child after : σ} {block : Block}
    {v : WindowStage} {range : TimeRange} {e : Failure} (open_ : v.allSettled = false)
    (empty : v.cached = none) (going : v.inputEnded = false) (may : v.mayPull = true)
    (more : hasNext child = .ok true) (given : pull child = (.ok (.block block), after))
    (some : block.isEmpty = false) (ordered : v.scan.Ordered block.rows)
    (refused : (feedOpen (block.skipTo range v.scan) v.aggregators).1 = .error e) :
    ∃ x, v.resolve hasNext pull child range = (.error e, x, after) := by
  obtain ⟨name, aggregators, cursor, schema, buffer, active, cached, mayPull, inputEnded,
    closed⟩ := v
  subst empty going may
  have checked := (block.checkScanOrder_eq_ok_iff _).2 ordered
  simp only [allSettled, WindowStage.scan] at open_ checked refused
  rw [resolve]
  simp only [advance, feedCached, accept, allSettled, WindowStage.scan, open_, more, given, checked,
    some, Bool.false_eq_true, Bool.not_true, if_false]
  rcases fed : feedOpen (block.skipTo range cursor.scan) aggregators with ⟨outcome, others⟩
  rw [fed] at refused
  cases refused
  exact ⟨_, rfl⟩

/-- The first call of a stage whose child has a row in the first window to give. -/
theorem WindowStage.next_lacking (context : Context) (pull : σ → Attempt σ Answer)
    {child after : σ} {block : Block}
    (windows : series.scanned scan = window :: coming)
    (able : ∀ a ∈ fresh, a.Able types scan) (lacks : ∃ a ∈ fresh, a.Lacks types)
    (more : hasNext child = .ok true) (given : pull child = (.ok (.block block), after))
    (probes : block.Probes types window.range) :
    ∃ cause v, (create context fresh (.start series scan)).next hasNext pull child =
      (.error (.malformedBlock cause), v, after) := by
  obtain ⟨cursor, met, rfl⟩ := Cursor.next?_start windows
  let w := (create context fresh (.start series cursor.scan)).anew
  let v := { w with
    cursor := cursor, aggregators := enterAll fresh window.range, active := some window }
  have left : w.windowsLeft = coming.length + 1 := by
    rw [windowsLeft_eq]
    exact congrArg List.length windows
  have roomy : w.buffer.isFull = false := (RowBuffer.holds_create _ _).clear.not_full
  have entered : w.enterWindow = some (window, v) := by
    rw [enterWindow]
    exact congrArg (Option.map _) met
  have open_ : v.allSettled = false := by
    obtain ⟨a, member, _⟩ := lacks
    rw [allSettled, List.all_eq_false]
    exact ⟨_, List.mem_map_of_mem member, by simp [a.isSettled_enter]⟩
  obtain ⟨cause, fed⟩ := feedOpen_lacking able (probes.skipTo cursor.scan) lacks
  obtain ⟨x, resolved⟩ := resolve_refused (v := v) open_ rfl rfl rfl more given probes.isEmpty_eq
    (probes.ordered _) fed
  have closing : w.closeWindows hasNext pull w.windowsLeft child =
      (.error (.malformedBlock cause), x, after) := by
    rw [left, closeWindows, if_neg (by simp [roomy]), entered]
    simp only [resolved]
  rw [next_eq rfl, show WindowStage.closeWindows hasNext pull _ _ child = _ from closing]
  exact ⟨cause, x, rfl⟩

namespace MergeStage
variable {lanes : List (Lane σ)}

/-- A lane that holds nothing, and whose child has a row in this range to give. -/
structure Offers (hasNext : σ → Except Failure Bool) (types : List ScalarType) (range : TimeRange)
    (lane : Lane σ) : Prop where
  empty : lane.inlet.held = none
  going : lane.inlet.ended = false
  more : hasNext lane.inlet.child = .ok true
  given : ∃ block, (lane.pull lane.inlet.child).1 = .ok (.block block) ∧ block.Probes types range

/-- All lanes are filled at once. -/
theorem prepare_offers (scan : Scan) {range : TimeRange}
    (offers : ∀ lane ∈ lanes, Offers hasNext types range lane ∧ lane.inlet.mayPull = true) :
    ∃ filled, prepare hasNext scan lanes = (.ok true, filled) ∧
      filled.map (·.inlet.child) = lanes.map (fun lane => (lane.pull lane.inlet.child).2) ∧
      ∃ blocks, filled.filterMap (·.inlet.held) = blocks ∧ blocks.length = lanes.length ∧
        ∀ block ∈ blocks, block.Probes types range := by
  induction lanes with
  | nil => exact ⟨[], rfl, rfl, [], rfl, rfl, nofun⟩
  | cons lane rest ih =>
    obtain ⟨⟨empty, going, more, block, given, probes⟩, may⟩ := offers lane List.mem_cons_self
    obtain ⟨filled, done, children, blocks, held, same, all⟩ :=
      ih fun other member => offers other (List.mem_cons_of_mem _ member)
    have checked : block.checkScanOrder scan = .ok () :=
      (block.checkScanOrder_eq_ok_iff _).2 (probes.ordered _)
    have fills : lane.fill hasNext scan =
        (none,
          { lane with
            inlet := ⟨(lane.pull lane.inlet.child).2, some block, false, false⟩ }) := by
      rw [Lane.fill, if_neg (by simp [empty, going]), more]
      simp only [may, Bool.not_true, Bool.false_eq_true, if_false, given, Answer.stops?,
        Answer.taken?, Inlet.given, probes.isEmpty_eq, checked]
    rw [prepare_cons, fills, done]
    refine ⟨_, rfl, congrArg (_ :: ·) children, block :: blocks, congrArg (block :: ·) held,
      congrArg (· + 1) same, ?_⟩
    exact List.forall_mem_cons.2 ⟨probes, all⟩

theorem next_lacking (context : Context) (windows : series.scanned scan = window :: coming)
    (able : ∀ a ∈ fresh, a.Able types scan) (lacks : ∃ a ∈ fresh, a.Lacks types)
    (some : lanes ≠ []) (offers : ∀ lane ∈ lanes, Offers hasNext types window.range lane) :
    ∃ cause m inlets, (create context fresh (.start series scan)).next hasNext lanes =
        (.error (.malformedBlock cause), m, inlets) ∧
      inlets.map (·.child) = lanes.map fun lane => (lane.pull lane.inlet.child).2 := by
  obtain ⟨cursor, met, rfl⟩ := Cursor.next?_start windows
  let m := (create context fresh (.start series cursor.scan)).anew
  let n := { m with
    cursor := cursor, aggregators := enterAll fresh window.range, active := .some window }
  have left : m.windowsLeft = coming.length + 1 := by
    rw [windowsLeft_eq rfl]
    exact congrArg List.length windows
  have roomy : m.buffer.isFull = false := (RowBuffer.holds_create _ _).clear.not_full
  have entered : m.enterWindow = .some (window, n) := by
    rw [enterWindow]
    exact congrArg (Option.map _) met
  have anew : ∀ lane ∈ lanes.map Lane.anew,
      Offers hasNext types window.range lane ∧ lane.inlet.mayPull = true := by
    intro lane member
    obtain ⟨before, inside, rfl⟩ := List.mem_map.1 member
    have offers := offers before inside
    exact ⟨⟨offers.empty, offers.going, offers.more, offers.given⟩, rfl⟩
  obtain ⟨filled, prepared, children, blocks, held, same, probes⟩ := prepare_offers m.scan anew
  obtain ⟨block, others, rfl⟩ : ∃ block others, blocks = block :: others := by
    apply List.exists_cons_of_ne_nil
    rw [← List.length_pos_iff_ne_nil, same, List.length_map]
    exact List.length_pos_of_ne_nil some
  obtain ⟨cause, fed⟩ := feedAll_lacking able probes lacks
  have closed : ∃ x, n.closeWindow filled window = (.error (.malformedBlock cause), x, filled) := by
    rw [closeWindow, held]
    rcases outcome : feedAll (block :: others) n.aggregators with ⟨e, after⟩
    rw [show feedAll (block :: others) (enterAll fresh window.range) = _ from outcome] at fed
    cases fed
    exact ⟨_, rfl⟩
  obtain ⟨x, closed⟩ := closed
  have closing : m.closeWindows hasNext m.windowsLeft (lanes.map Lane.anew) =
      (.error (.malformedBlock cause), x, filled) := by
    rw [left, closeWindows, if_neg (by simp [roomy]), prepared, entered]
    simp only [closed]
  rw [next_eq rfl, show MergeStage.closeWindows hasNext _ _ _ = _ from closing]
  refine ⟨cause, x, _, rfl, ?_⟩
  rw [List.map_map]
  exact children.trans List.map_map

end MergeStage
end
end WindowFold
