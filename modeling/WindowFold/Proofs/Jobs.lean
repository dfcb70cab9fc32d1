import WindowFold.Proofs.Buffering
import WindowFold.Proofs.Feeding
import WindowFold.Proofs.Windows

/-! What a window stage has to do: give a row for every window, of what fresh
aggregators make of the rows within it. -/
namespace WindowFold

/-- The rows that come from the child, in the end, and the aggregators that
every window begins with. -/
structure Job where
  types : List ScalarType
  scan : Scan
  fresh : List Aggregator
  rows : List Row
  ordered : scan.Ordered rows
  typed : ∀ r ∈ rows, r.types = types
  suits : ∀ a ∈ fresh, a.Suits types scan rows

namespace Job
variable {job : Job} {range : TimeRange} {past more : List Row}

def aggregated (job : Job) (range : TimeRange) (past : List Row) : List Aggregator :=
  job.fresh.map fun a => (a.enter range).given (past.filter (Row.within range))

def row (job : Job) (w : Window) : Row :=
  ⟨w.outputTime, outputRow (job.aggregated w.range job.rows)⟩

def Enough (job : Job) (range : TimeRange) (past : List Row) : Prop :=
  job.aggregated range past = job.aggregated range job.rows

theorem aggregated_nothing (none : ∀ r ∈ past, r.within range = false) :
    job.aggregated range past = enterAll job.fresh range := by
  rw [aggregated, List.filter_eq_nil_iff.2 fun r member => by simp [none r member]]
  rfl

theorem enterAll_aggregated (range window : TimeRange) (past : List Row) :
    enterAll (job.aggregated window past) range = enterAll job.fresh range := by
  rw [enterAll, aggregated, List.map_map]
  refine List.map_congr_left fun a _ => ?_
  rw [Function.comp_apply, Aggregator.given_enter, Aggregator.enter_enter]

theorem given_aggregated :
    (job.aggregated range past).map (·.given (more.filter (Row.within range))) =
      job.aggregated range (past ++ more) := by
  rw [aggregated, aggregated, List.map_map]
  refine List.map_congr_left fun a _ => ?_
  rw [Function.comp_apply, Aggregator.given_append, List.filter_append]

theorem suits_aggregated {a : Aggregator} (member : a ∈ job.aggregated range past) :
    a.Suits job.types job.scan job.rows ∧ a.range = range := by
  obtain ⟨b, fresh, rfl⟩ := List.mem_map.1 member
  exact ⟨((job.suits b fresh).enter range).given, rfl⟩

/-- A block fed to the aggregators of a window: they take in its rows up to the
end of the window, and are told where the rows after it begin. -/
theorem feedOpen_skipTo {block : Block} (types : block.schema.types = job.types)
    (part : List.Sublist block.rows job.rows)
    (open_ : (job.aggregated range past).all (·.isSettled) = false) :
    WindowStage.feedOpen (block.skipTo range job.scan) (job.aggregated range past) =
      (.ok (Block.rowsWithin (block.skipTo range job.scan).times range job.scan).2,
        job.aggregated range (past ++ Row.upTo range job.scan block.rows)) := by
  have skipped := Block.rows_skipTo block range job.scan
  have fewer : List.Sublist (block.skipTo range job.scan).rows job.rows := by
    rw [skipped]
    exact (List.dropWhile_sublist _).trans part
  have same : (block.skipTo range job.scan).schema.types = job.types := by
    rw [Block.schema_skipTo]
    exact types
  have suit : ∀ a ∈ job.aggregated range past,
      a.Suits job.types job.scan (block.skipTo range job.scan).rows ∧ a.range = range :=
    fun a member => ⟨(suits_aggregated member).1.fewer fewer, (suits_aggregated member).2⟩
  rw [WindowStage.feedOpen_eq same (List.Pairwise.sublist fewer job.ordered) suit,
    if_neg (by simp [open_]), skipped, Row.filter_within_dropWhile_ahead,
    ← Row.filter_within_upTo range job.scan, given_aggregated]

/-- Rows outside the window are not missed. -/
theorem enough_of_outside (split : job.rows = past ++ more)
    (outside : ∀ r ∈ more, r.within range = false) : job.Enough range past := by
  rw [Enough, split, ← given_aggregated,
    List.filter_eq_nil_iff.2 fun r member => by simp [outside r member]]
  exact (List.map_id'' Aggregator.given_nil _).symm

/-- Nor are any rows once every aggregator is settled. -/
theorem enough_of_settled (split : job.rows = past ++ more)
    (settled : (job.aggregated range past).all (·.isSettled) = true) : job.Enough range past := by
  rw [Enough, split, ← given_aggregated]
  refine (List.map_congr_left fun a member => ?_).trans (List.map_id' _) |>.symm
  exact Aggregator.given_settled (List.all_eq_true.1 settled a member) _

theorem row_types (job : Job) (w : Window) :
    (job.row w).values.map (·.type) = Schema.types (outputSchema job.fresh).tail := by
  have typed : ∀ a ∈ job.aggregated w.range job.rows, a.accumulator.Typed := by
    intro a member
    obtain ⟨b, fresh, rfl⟩ := List.mem_map.1 member
    refine ((job.suits b fresh).enter w.range).typed (fun r inside => ?_)
      (Accumulator.typed_reset b.accumulator)
    exact job.typed r (List.mem_of_mem_filter inside)
  rw [row, outputRow_types typed]
  simp only [outputSchema, List.tail_cons, Schema.types, List.map_flatMap, aggregated,
    List.flatMap_map]
  refine List.flatMap_congr fun a _ => ?_
  have types : ∀ b : Aggregator, b.outputFields.map (·.type) = b.outputTypes :=
    Aggregator.outputFields_types
  rw [types, types, Aggregator.outputTypes_given, Aggregator.outputTypes_enter]

end Job
end WindowFold
