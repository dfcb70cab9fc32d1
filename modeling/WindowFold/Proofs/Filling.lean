import WindowFold.Proofs.Steady
import WindowFold.Proofs.WindowAnswers
import WindowFold.Proofs.WindowQueries

/-! The rows of a window stage, window by window and block by block, apart from the
calls in which they are made. A window takes in what is kept of the last block and
then one block after the other, until it can get no more rows. -/
namespace WindowFold

theorem Block.sliceFrom_zero (b : Block) : b.sliceFrom 0 = b := by
  have series : b.series.map (·.extract 0 b.times.length) = b.series := by
    conv_rhs => rw [← List.map_id b.series]
    refine List.map_congr_left fun s member => ?_
    have same := b.aligned s member
    rw [Column.length] at same
    rw [Series.extract, Column.extract, List.drop_zero, List.take_of_length_le (by omega)]
    rfl
  obtain ⟨name, nullable, times, columns, aligned⟩ := b
  simp only [Block.sliceFrom, Block.extract, Block.rowCount, List.drop_zero, Nat.sub_zero,
    List.take_length, mk.injEq, true_and]
  exact series

theorem Block.ordered_skipTo {b : Block} {scan : Scan} (ordered : scan.Ordered b.rows)
    (range : TimeRange) : scan.Ordered (b.skipTo range scan).rows := by
  rw [rows_skipTo]
  exact ordered.sublist (List.dropWhile_sublist _)

/-- A block past a range is not cut. -/
theorem Block.cuts_past {b : Block} {range : TimeRange} {scan : Scan} {t : Timestamp}
    (real : range.contains t = true) (past : ∀ r ∈ b.rows, r.past range scan = true) :
    b.skipTo range scan = b ∧ (rowsWithin b.times range scan).2 = 0 := by
  have ahead : rowsAhead b.times range scan = 0 := by
    rw [rowsAhead_eq, List.length_eq_zero_iff]
    cases rows : b.rows with
    | nil => rfl
    | cons r rest =>
      have passed := past r (rows ▸ List.mem_cons_self)
      refine List.takeWhile_cons_of_neg fun early => ?_
      rw [Row.past, TimeRange.not_isPassedBy_of_isAheadOf real early] at passed
      cases passed
  have upTo : rowsUpTo b.times range scan = 0 := by
    rw [rowsUpTo_eq, List.length_eq_zero_iff]
    cases rows : b.rows with
    | nil => rfl
    | cons r rest =>
      have passed := past r (rows ▸ List.mem_cons_self)
      exact List.takeWhile_cons_of_neg (by simp [passed])
  constructor
  · rw [skipTo, ahead, sliceFrom_zero]
  · rw [rowsWithin, ahead, upTo]
    rfl

/-- The aggregations of a window, and the rows that are kept for it and for later ones. -/
structure Filling where
  aggregators : List Aggregator
  kept : Option Block

namespace Filling

/-- Uses up the kept rows as far as the window goes. True once it can get no more. -/
def feed (f : Filling) (scan : Scan) (range : TimeRange) : Attempt Filling Bool :=
  if f.aggregators.all (·.isSettled) then (.ok true, f)
  else
    match f.kept with
    | none => (.ok false, f)
    | some block =>
      if block.isEmpty then (.ok false, ⟨f.aggregators, none⟩)
      else
        let block := block.skipTo range scan
        match WindowStage.feedOpen block f.aggregators with
        | (.error e, aggregators) => (.error e, ⟨aggregators, none⟩)
        | (.ok stop, aggregators) =>
          let tail := block.sliceFrom stop
          (.ok (tail.startTime?.any (range.isPassedBy scan) || aggregators.all (·.isSettled)),
            ⟨aggregators, if tail.isEmpty then none else some tail⟩)

/-- Brings a window to its end with the blocks to come; what is left of them. -/
def settle (scan : Scan) (range : TimeRange) :
    List Block → Filling → Except Failure (Filling × List Block)
  | [], f =>
    match f.feed scan range with
    | (.error e, _) => .error e
    | (.ok true, f) => .ok (f, [])
    | (.ok false, f) => .ok (⟨f.aggregators, none⟩, [])
  | block :: rest, f =>
    match f.feed scan range with
    | (.error e, _) => .error e
    | (.ok true, f) => .ok (f, block :: rest)
    | (.ok false, f) => settle scan range rest
        ⟨f.aggregators, if block.isEmpty then none else some block⟩

/-- The rows of these windows, from what is kept and the blocks to come. -/
def rows (scan : Scan) (fresh : List Aggregator) :
    List Window → Option Block → List Block → Except Failure (List Row)
  | [], _, _ => .ok []
  | window :: coming, kept, blocks =>
    match settle scan window.range blocks ⟨enterAll fresh window.range, kept⟩ with
    | .error e => .error e
    | .ok (f, rest) =>
      (rows scan fresh coming f.kept rest).map (⟨window.outputTime, outputRow f.aggregators⟩ :: ·)

/-- The rows from a window on that is brought to its end. -/
def finish (scan : Scan) (fresh : List Aggregator) (window : Window) (coming : List Window)
    (settled : Except Failure (Filling × List Block)) : Except Failure (List Row) :=
  match settled with
  | .error e => .error e
  | .ok (f, rest) =>
    (rows scan fresh coming f.kept rest).map (⟨window.outputTime, outputRow f.aggregators⟩ :: ·)

variable {scan : Scan} {fresh aggregators : List Aggregator} {window : Window}
  {coming : List Window} {kept : Option Block} {blocks rest : List Block} {range : TimeRange}
  {f g : Filling}

theorem rows_cons : rows scan fresh (window :: coming) kept blocks = finish scan fresh window coming
    (settle scan window.range blocks ⟨enterAll fresh window.range, kept⟩) := rfl

theorem settle_error {e : Failure} (fed : f.feed scan range = (.error e, g)) :
    settle scan range blocks f = .error e := by
  cases blocks <;> simp only [settle, fed]

theorem settle_true (fed : f.feed scan range = (.ok true, g)) :
    settle scan range blocks f = .ok (g, blocks) := by
  cases blocks <;> simp only [settle, fed]

theorem feed_settled (settled : f.aggregators.all (·.isSettled) = true) :
    f.feed scan range = (.ok true, f) := by
  rw [feed, if_pos settled]

/-- Kept rows are cut at the ends of the window. -/
theorem feed_some (open_ : aggregators.all (·.isSettled) = false) {block : Block}
    (some : block.isEmpty = false) :
    feed ⟨aggregators, .some block⟩ scan range =
      match WindowStage.feedOpen (block.skipTo range scan) aggregators with
      | (.error e, after) => (.error e, ⟨after, none⟩)
      | (.ok stop, after) =>
        (.ok ((((block.skipTo range scan).sliceFrom stop).startTime?.any (range.isPassedBy scan)) ||
            after.all (·.isSettled)),
          ⟨after, if ((block.skipTo range scan).sliceFrom stop).isEmpty then none
            else .some ((block.skipTo range scan).sliceFrom stop)⟩) := by
  rw [feed, if_neg (by simp [open_])]
  simp only [some]
  rfl

theorem feed_empty (open_ : aggregators.all (·.isSettled) = false) {block : Block}
    (empty : block.isEmpty = true) :
    feed ⟨aggregators, some block⟩ scan range = (.ok false, ⟨aggregators, none⟩) := by
  simp only [feed, open_, empty]
  rfl

theorem feed_none (open_ : aggregators.all (·.isSettled) = false) :
    feed ⟨aggregators, none⟩ scan range = (.ok false, ⟨aggregators, none⟩) := by
  simp only [feed, open_]
  rfl

theorem settle_nil (open_ : aggregators.all (·.isSettled) = false) :
    settle scan range [] ⟨aggregators, none⟩ = .ok (⟨aggregators, none⟩, []) := by
  simp only [settle, feed_none open_]

theorem settle_none (open_ : aggregators.all (·.isSettled) = false) (block : Block) :
    settle scan range (block :: rest) ⟨aggregators, none⟩ =
      settle scan range rest ⟨aggregators, if block.isEmpty then none else some block⟩ := by
  simp only [settle, feed_none open_]

theorem unsettled_of_feed (fed : f.feed scan range = (.ok false, g)) :
    g.aggregators.all (·.isSettled) = false := by
  rw [feed] at fed
  split at fed
  · cases fed
  next open_ =>
  rw [Bool.not_eq_true] at open_
  split at fed
  · cases fed
    exact open_
  split at fed
  · cases fed
    exact open_
  dsimp only at fed
  split at fed
  · cases fed
  · obtain ⟨done, rfl⟩ := Prod.mk.inj fed
    exact (Bool.or_eq_false_iff.1 (Except.ok.inj done)).2

theorem settle_false (fed : f.feed scan range = (.ok false, g)) :
    settle scan range blocks f = settle scan range blocks ⟨g.aggregators, none⟩ := by
  have open_ := unsettled_of_feed fed
  cases blocks with
  | nil => simp only [settle, fed, feed_none open_]
  | cons block rest => simp only [settle, fed, feed_none open_]

/-- A block that comes while nothing is kept is kept, unless it is empty. -/
theorem rows_none (open_ : ∀ range, (enterAll fresh range).all (·.isSettled) = false)
    (windows : List Window) (block : Block) :
    rows scan fresh windows none (block :: rest) =
      rows scan fresh windows (if block.isEmpty then none else some block) rest := by
  cases windows with
  | nil => rfl
  | cons window coming => rw [rows_cons, rows_cons, settle_none (open_ window.range)]

/-- Where all rows to come are past a window, it comes to its end with what it has. -/
theorem finish_past (open_ : ∀ range, (enterAll fresh range).all (·.isSettled) = false)
    (unsettled : aggregators.all (·.isSettled) = false)
    (within : WindowStage.Within window.range scan aggregators)
    (real : window.range.contains window.outputTime = true)
    (ordered : ∀ b ∈ blocks, scan.Ordered b.rows)
    (past : ∀ b ∈ blocks, ∀ r ∈ b.rows, r.past window.range scan = true) :
    finish scan fresh window coming (settle scan window.range blocks ⟨aggregators, none⟩) =
      (rows scan fresh coming none blocks).map
        (⟨window.outputTime, outputRow aggregators⟩ :: ·) := by
  induction blocks with
  | nil => rw [settle_nil unsettled, finish]
  | cons block rest ih =>
    rw [settle_none unsettled, rows_none open_]
    cases empty : block.isEmpty with
    | true =>
      exact ih (fun b member => ordered b (List.mem_cons_of_mem _ member))
        fun b member => past b (List.mem_cons_of_mem _ member)
    | false =>
      obtain ⟨whole, cut⟩ := Block.cuts_past real (past block List.mem_cons_self)
      have none : block.rows.filter (Row.within window.range) = [] :=
        List.filter_eq_nil_iff.2 fun r member => by
          simp [Row.within_of_past (past block List.mem_cons_self r member)]
      obtain ⟨stop, fed⟩ := WindowStage.feedOpen_outside within
        (ordered block List.mem_cons_self) none
      have zero : stop = 0 := by
        rw [WindowStage.stop_of_feedOpen within fed, if_neg (by simp [unsettled]), cut]
      have passed : block.startTime?.any (window.range.isPassedBy scan) = true := by
        rw [Block.startTime_eq]
        obtain ⟨r, others, rows⟩ := List.exists_cons_of_ne_nil
          (mt (Block.isEmpty_iff block).2 (by simp [empty]))
        rw [rows]
        exact past block List.mem_cons_self r (rows ▸ List.mem_cons_self)
      have done : feed ⟨aggregators, some block⟩ scan window.range =
          (.ok true, ⟨aggregators, some block⟩) := by
        rw [feed_some unsettled empty, whole, fed]
        simp only [zero, Block.sliceFrom_zero, passed, empty]
        rfl
      simp only [Bool.false_eq_true, if_false, settle_true done, finish]

end Filling

/-- The aggregations that every window begins with: one at least, each made for rows of
these types. -/
structure Prepared (types : List ScalarType) (scan : Scan) (fresh : List Aggregator) : Prop where
  some : fresh ≠ []
  steady : ∀ a ∈ fresh, a.Steady types scan

section
variable {types : List ScalarType} {scan : Scan} {fresh aggregators after : List Aggregator}
  {range : TimeRange}

theorem Prepared.unsettled (prepared : Prepared types scan fresh) (range : TimeRange) :
    (enterAll fresh range).all (·.isSettled) = false := by
  obtain ⟨a, rest, listed⟩ := List.exists_cons_of_ne_nil prepared.some
  rw [listed, enterAll, List.map_cons, List.all_cons, a.isSettled_enter]
  rfl

theorem Entered.steady (entered : Entered fresh range aggregators)
    (prepared : Prepared types scan fresh) : ∀ a ∈ aggregators, a.Steady types scan := by
  intro b member
  rw [Entered, enterAll, List.forall₂_map_left_iff] at entered
  obtain ⟨a, listed, kept⟩ := exists_left entered member
  exact ((prepared.steady a listed).enter range).of_keeps kept

theorem Entered.within (entered : Entered fresh range aggregators)
    (prepared : Prepared types scan fresh) : WindowStage.Within range scan aggregators := by
  intro b member
  refine ⟨?_, (entered.steady prepared b member).sameScan⟩
  rw [Entered, enterAll, List.forall₂_map_left_iff] at entered
  obtain ⟨a, _, kept⟩ := exists_left entered member
  rw [kept.same]
  rfl

theorem Entered.bars_eq (entered : Entered fresh range aggregators) (block : Block) :
    WindowStage.bars block aggregators = WindowStage.bars block fresh := by
  rw [Entered, enterAll, List.forall₂_map_left_iff] at entered
  apply WindowStage.bars_congr
  apply entered.imp
  intro a b kept
  constructor
  · rw [kept.misses, Aggregator.misses_enter]
  · rw [← Accumulator.maySettle_reset, kept.reset, Accumulator.maySettle_reset]
    exact Accumulator.maySettle_reset a.accumulator

end

namespace Filling
variable {types : List ScalarType} {scan : Scan} {fresh aggregators : List Aggregator}
  {range : TimeRange}

/-- What is fed changes the values alone, and what is kept is a part of what was. -/
theorem feed_keeps {f : Filling} (steady : ∀ a ∈ f.aggregators, a.Steady types scan)
    (fit : Aggregator.Fit types scan f.kept.toList) (range : TimeRange) :
    List.Forall₂ Aggregator.Keeps f.aggregators (f.feed scan range).2.aggregators ∧
      Aggregator.Fit types scan (f.feed scan range).2.kept.toList := by
  obtain ⟨aggregators, kept⟩ := f
  have same : List.Forall₂ Aggregator.Keeps aggregators aggregators :=
    List.forall₂_same.2 fun a _ => .refl a
  cases open_ : aggregators.all (·.isSettled) with
  | true =>
    rw [feed_settled (by exact open_)]
    exact ⟨same, fit⟩
  | false =>
    cases kept with
    | none =>
      rw [feed_none open_]
      exact ⟨same, fit⟩
    | some block =>
      obtain ⟨sort, ordered⟩ := fit block (Option.mem_toList.2 rfl)
      have skipped : (block.skipTo range scan).schema.types = types := by
        rw [Block.schema_skipTo, sort]
      have part := Block.ordered_skipTo ordered range
      cases empty : block.isEmpty with
      | true =>
        rw [feed_empty open_ empty]
        exact ⟨same, fun _ member => absurd member List.not_mem_nil⟩
      | false =>
        have keeps := WindowStage.keeps_feedOpen steady skipped part
        rw [feed_some open_ empty]
        rcases fed : WindowStage.feedOpen (block.skipTo range scan) aggregators
          with ⟨e | stop, after⟩
        · rw [fed] at keeps
          exact ⟨keeps, fun _ member => absurd member List.not_mem_nil⟩
        · rw [fed] at keeps
          refine ⟨keeps, fun b member => ?_⟩
          obtain ⟨_, tail⟩ := Option.ite_none_left_eq_some.1 (Option.mem_toList.1 member)
          obtain rfl := Option.some.inj tail
          rw [Block.schema_sliceFrom, Block.rows_sliceFrom]
          exact ⟨skipped, part.sublist (List.drop_sublist _ _)⟩

/-- Aggregators of rows take in what is kept. -/
theorem feed_ok {f : Filling} (reads : ∀ a ∈ f.aggregators, a.Reads types scan)
    (fit : Aggregator.Fit types scan f.kept.toList) (range : TimeRange) :
    ∃ done g, f.feed scan range = (.ok done, g) := by
  obtain ⟨aggregators, kept⟩ := f
  cases open_ : aggregators.all (·.isSettled) with
  | true => exact ⟨_, _, feed_settled (by exact open_)⟩
  | false =>
    cases kept with
    | none => exact ⟨_, _, feed_none open_⟩
    | some block =>
      cases empty : block.isEmpty with
      | true => exact ⟨_, _, feed_empty open_ empty⟩
      | false =>
        have skipped : (block.skipTo range scan).schema.types = types := by
          rw [Block.schema_skipTo, (fit block (Option.mem_toList.2 rfl)).1]
        obtain ⟨stop, after, fed⟩ := WindowStage.feedOpen_ok reads skipped
        rw [feed_some open_ empty, fed]
        exact ⟨_, _, rfl⟩

/-- And so a window of theirs comes to its end. -/
theorem settle_ok {blocks : List Block} {f : Filling}
    (reads : ∀ a ∈ f.aggregators, a.Reads types scan)
    (fit : Aggregator.Fit types scan (f.kept.toList ++ blocks)) (range : TimeRange) :
    ∃ g rest, settle scan range blocks f = .ok (g, rest) ∧
      Aggregator.Fit types scan (g.kept.toList ++ rest) := by
  induction blocks generalizing f with
  | nil =>
    rw [List.append_nil] at fit
    obtain ⟨done, g, fed⟩ := feed_ok reads fit range
    have kept := (feed_keeps (fun a member => .inl (reads a member)) fit range).2
    rw [fed] at kept
    cases done with
    | true => exact ⟨g, [], settle_true fed, by rwa [List.append_nil]⟩
    | false =>
      refine ⟨⟨g.aggregators, none⟩, [], ?_, fun _ member => absurd member List.not_mem_nil⟩
      rw [settle_false fed, settle_nil (unsettled_of_feed fed)]
  | cons block rest ih =>
    have held : Aggregator.Fit types scan f.kept.toList := fun b member =>
      fit b (List.mem_append_left _ member)
    obtain ⟨done, g, fed⟩ := feed_ok reads held range
    obtain ⟨keeps, kept⟩ := feed_keeps (fun a member => .inl (reads a member)) held range
    rw [fed] at keeps kept
    cases done with
    | true =>
      refine ⟨g, block :: rest, settle_true fed, fun b member => ?_⟩
      rcases List.mem_append.1 member with left | coming
      · exact kept b left
      · exact fit b (List.mem_append_right _ coming)
    | false =>
      rw [settle_false fed, settle_none (unsettled_of_feed fed)]
      apply ih
      · intro b member
        obtain ⟨a, listed, same⟩ := exists_left keeps member
        exact (reads a listed).of_keeps same
      · intro b member
        rcases List.mem_append.1 member with whole | later
        · obtain ⟨_, same⟩ := Option.ite_none_left_eq_some.1 (Option.mem_toList.1 whole)
          obtain rfl := Option.some.inj same
          exact fit block (List.mem_append_right _ List.mem_cons_self)
        · exact fit b (List.mem_append_right _ (List.mem_cons_of_mem _ later))

theorem rows_ok (reads : ∀ a ∈ fresh, a.Reads types scan) (windows : List Window)
    {kept : Option Block} {blocks : List Block}
    (fit : Aggregator.Fit types scan (kept.toList ++ blocks)) :
    ∃ made, rows scan fresh windows kept blocks = .ok made := by
  induction windows generalizing kept blocks with
  | nil => exact ⟨[], rfl⟩
  | cons window coming ih =>
    have entered : ∀ a ∈ enterAll fresh window.range, a.Reads types scan := by
      intro a member
      obtain ⟨b, listed, rfl⟩ := List.mem_map.1 member
      exact (reads b listed).enter window.range
    obtain ⟨f, rest, settled, left⟩ :=
      settle_ok (f := ⟨enterAll fresh window.range, kept⟩) entered fit
      window.range
    obtain ⟨made, later⟩ := ih left
    rw [rows_cons, settled, finish, later]
    exact ⟨_, rfl⟩

/-- A block that is barred fails as soon as it has rows in a window. Until then the
windows before it are passed, and it changes nothing. -/
theorem feed_barred (within : WindowStage.Within range scan aggregators)
    (open_ : aggregators.all (·.isSettled) = false) {block : Block}
    (barred : WindowStage.bars block aggregators = true) (ordered : scan.Ordered block.rows) :
    (∃ e, feed ⟨aggregators, some block⟩ scan range = (.error e, ⟨aggregators, none⟩)) ∨
      feed ⟨aggregators, some block⟩ scan range = (.ok false, ⟨aggregators, none⟩) ∨
      ∃ tail, feed ⟨aggregators, some block⟩ scan range = (.ok true, ⟨aggregators, some tail⟩) ∧
        tail.rows = Row.beyond range scan block.rows ∧ tail.isEmpty = false ∧
        tail.columnCount = block.columnCount := by
  cases empty : block.isEmpty with
  | true => exact .inr (.inl (feed_empty open_ empty))
  | false =>
    have part := Block.ordered_skipTo ordered range
    have width : (block.skipTo range scan).columnCount = block.columnCount := by
      rw [Block.columnCount_eq, Block.columnCount_eq, Block.schema_skipTo]
    rw [feed_some open_ empty]
    by_cases none : (block.skipTo range scan).rows.filter (Row.within range) = []
    · obtain ⟨stop, fed⟩ := WindowStage.feedOpen_outside within part none
      have cut := WindowStage.stop_of_feedOpen within fed
      rw [if_neg (by simp [open_])] at cut
      have after := Block.rows_sliceFrom_skipTo block range scan
      rw [← cut] at after
      have passed := WindowStage.startTime_tail after
      rw [fed]
      dsimp only
      cases last : ((block.skipTo range scan).sliceFrom stop).isEmpty with
      | true =>
        rw [Block.isEmpty_iff] at last
        refine .inr (.inl ?_)
        rw [passed, last, open_]
        rfl
      | false =>
        have more : ((block.skipTo range scan).sliceFrom stop).rows ≠ [] :=
          mt (Block.isEmpty_iff _).2 (by simp [last])
        refine .inr (.inr ⟨(block.skipTo range scan).sliceFrom stop, ?_, after, last, ?_⟩)
        · rw [passed, List.isEmpty_eq_false_iff.2 more]
          rfl
        · rw [Block.columnCount_eq, Block.schema_sliceFrom, ← Block.columnCount_eq, width]
    · have barred : WindowStage.bars (block.skipTo range scan) aggregators = true := by
        rw [WindowStage.bars_of_columnCount width]
        exact barred
      obtain ⟨e, failed⟩ := WindowStage.feedOpen_barred within part none barred open_
      rw [failed]
      exact .inl ⟨e, rfl⟩

end Filling

namespace WindowStage

/-- What the stage works on a window with. -/
def filling (w : WindowStage) : Filling := ⟨w.aggregators, w.cached⟩

theorem feedCached_eq (w : WindowStage) (range : TimeRange) :
    w.feedCached range = ((w.filling.feed w.scan range).1,
      { w with
        aggregators := (w.filling.feed w.scan range).2.aggregators
        cached := (w.filling.feed w.scan range).2.kept }) := by
  cases open_ : w.aggregators.all (·.isSettled) with
  | true =>
    rw [feedCached, if_pos (by exact open_), Filling.feed_settled (by exact open_)]
    rfl
  | false =>
    rw [feedCached, if_neg (by simpa [allSettled] using open_), filling]
    cases cached : w.cached with
    | none =>
      rw [Filling.feed_none open_]
      simp only [← cached]
    | some block =>
      dsimp only
      cases empty : block.isEmpty with
      | true => rw [Filling.feed_empty open_ empty, if_pos rfl]
      | false =>
        rw [Filling.feed_some open_ empty]
        simp only [WindowStage.scan]
        rcases feedOpen (block.skipTo range w.cursor.scan) w.aggregators with ⟨e | stop, after⟩
        · rfl
        · rfl

end WindowStage

namespace Query
variable {q : Query} {schema : Schema} {fresh : List Aggregator}

theorem prepared (made : q.aggregators schema = .ok fresh) :
    Prepared schema.types q.scan fresh := by
  obtain ⟨some, created⟩ := aggregators_eq_ok.1 made
  refine ⟨?_, fun a member => ?_⟩
  · rintro rfl
    exact some (List.forall₂_nil_right_iff.1 created)
  · obtain ⟨spec, _, created⟩ := exists_left created member
    exact Aggregator.steady_of_create created

theorem reads (made : q.aggregators schema = .ok fresh)
    (raw : ∀ spec ∈ q.aggregations, spec.step.readsRows = true) :
    ∀ a ∈ fresh, a.Reads schema.types q.scan := by
  intro a member
  obtain ⟨spec, listed, created⟩ := exists_left (aggregators_eq_ok.1 made).2 member
  exact Aggregator.reads_of_create created (raw spec listed)

end Query
end WindowFold
