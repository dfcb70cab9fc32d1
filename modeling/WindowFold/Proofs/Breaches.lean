import Mathlib
import WindowFold.Operator.MergeStage
import WindowFold.Operator.WindowStage

/-! Who can break a rule of pulling. What a stage does by itself never fails that
way: a breach comes from the pull of a child, and a stage pulls none that has
ended. -/
namespace WindowFold

/-- An outcome that is not the breach of a rule. -/
def Lawful {α : Type} (outcome : Except Failure α) : Prop :=
  ∀ operator breach, outcome ≠ .error (.protocolViolation operator breach)

section
variable {α β : Type}

theorem lawful_ok (x : α) : Lawful (.ok x : Except Failure α) := nofun

theorem lawful_malformed (cause : Malformation) :
    Lawful (.error (.malformedBlock cause) : Except Failure α) := nofun

theorem Lawful.map {outcome : Except Failure α} (lawful : Lawful outcome) (f : α → β) :
    Lawful (outcome.map f) := by
  cases outcome with
  | ok x => exact nofun
  | error e =>
    intro operator breach same
    cases same
    exact lawful operator breach rfl

/-- A failure is passed on as it is. -/
theorem Lawful.error {outcome : Except Failure α} {e : Failure} (lawful : Lawful outcome)
    (failed : outcome = .error e) : Lawful (.error e : Except Failure β) := by
  subst failed
  intro operator breach same
  cases same
  exact lawful operator breach rfl

theorem lawful_mapM {f : α → Except Failure β} (lawful : ∀ x, Lawful (f x)) (xs : List α) :
    Lawful (xs.mapM f) := by
  induction xs with
  | nil => exact lawful_ok _
  | cons x xs ih =>
    rw [List.mapM_cons]
    cases first : f x with
    | error e => exact (lawful x).error first
    | ok y =>
      cases others : xs.mapM f with
      | error e =>
        rw [others] at ih
        exact ih.error rfl
      | ok ys => exact lawful_ok _

end

theorem ScalarType.lawful_convertCells (source target : ScalarType)
    (cells : List (Option source.Value)) : Lawful (source.convertCells target cells) := by
  rw [convertCells]
  split
  · refine lawful_mapM (fun cell => ?_) cells
    unfold convertCell
    split
    · exact nofun
    split
    · exact nofun
    · split <;> exact nofun
  · exact nofun

theorem Scalar.lawful_toInt64? (s : Scalar) : Lawful s.toInt64? := by
  rw [toInt64?]
  split
  · exact nofun
  · split <;> exact nofun

theorem Scalar.lawful_toFloat64? (s : Scalar) : Lawful s.toFloat64? := by
  rw [toFloat64?]
  split
  · exact nofun
  · split <;> exact nofun

namespace Accumulator
variable {acc : Accumulator}

theorem lawful_pickTimed (position : Position) (scan : Scan) (times : List Timestamp)
    (values : Column) : Lawful (pickTimed position scan times values) := by
  rw [pickTimed]
  split
  · exact nofun
  · split <;> exact nofun

theorem lawful_addRows (acc : Accumulator) (times : List Timestamp) (values : Column) :
    Lawful (acc.addRows times values) := by
  have cells := values.type.lawful_convertCells .float64 values.cells
  cases acc with
  | count | extremum => exact nofun
  | sum =>
    rw [addRows]
    split
    next failed => exact cells.error failed
    next => split <;> exact nofun
  | avg | extreme =>
    rw [addRows]
    split
    next failed => exact cells.error failed
    next => exact nofun
  | valueAt position scan | timeAt position scan =>
    have picked := lawful_pickTimed position scan times values
    rw [addRows]
    split
    · exact nofun
    split
    next failed => exact picked.error failed
    · exact nofun
    · exact nofun

theorem lawful_addPartial (acc : Accumulator) (columns : List Scalar) :
    Lawful (acc.addPartial columns).1 := by
  unfold addPartial
  cases acc with
  | extremum =>
    dsimp only
    split
    · exact lawful_ok _
    · exact lawful_malformed _
  | count | timeAt =>
    dsimp only
    split
    next =>
      split
      next failed => exact (Scalar.lawful_toInt64? _).error failed
      all_goals exact lawful_ok _
    next => exact lawful_malformed _
  | sum | extreme =>
    dsimp only
    split
    next x =>
      split
      next failed => exact x.lawful_toFloat64?.error failed
      all_goals exact lawful_ok _
    next => exact lawful_malformed _
  | avg =>
    dsimp only
    split
    next n x =>
      split
      next failed => exact n.lawful_toInt64?.error failed
      next =>
        split
        · exact lawful_ok _
        split
        next failed => exact x.lawful_toFloat64?.error failed
        next => exact lawful_ok _
    next => exact lawful_malformed _
  | valueAt =>
    dsimp only
    split
    next s t =>
      split
      · exact lawful_ok _
      split
      next failed => exact t.lawful_toInt64?.error failed
      all_goals exact lawful_ok _
    next => exact lawful_malformed _

end Accumulator

namespace Aggregator

theorem lawful_feedPartials (a : Aggregator) (parts : List (List Scalar)) :
    Lawful (a.feedPartials parts).1 := by
  induction parts generalizing a with
  | nil => exact lawful_ok _
  | cons columns rest ih =>
    have added := a.accumulator.lawful_addPartial columns
    rw [feedPartials]
    cases outcome : (a.accumulator.addPartial columns).1 with
    | error e => simpa only [outcome] using added.error outcome
    | ok => simpa only [outcome] using ih _

theorem lawful_feedRows (a : Aggregator) (block : Block) (start stop : Nat) :
    Lawful (a.feedRows block start stop).1 := by
  rw [feedRows]
  split
  · exact lawful_ok _
  split
  · exact lawful_malformed _
  dsimp only
  split
  · split
    · exact nofun
    next values _ _ =>
      have added := a.accumulator.lawful_addRows (block.extract start (stop - start)).times values
      split
      next failed => exact added.error failed
      next => exact lawful_ok _
  · exact a.lawful_feedPartials _

theorem lawful_feedBlock (a : Aggregator) (block : Block) : Lawful (a.feedBlock block).1 :=
  (a.lawful_feedRows block _ _).map _

theorem lawful_feedBlocks (a : Aggregator) (blocks : List Block) :
    Lawful (a.feedBlocks blocks).1 := by
  induction blocks generalizing a with
  | nil => exact lawful_ok _
  | cons block rest ih =>
    have fed := a.lawful_feedBlock block
    rw [feedBlocks]
    cases outcome : (a.feedBlock block).1 with
    | error e => simpa only [outcome] using fed.error outcome
    | ok => simpa only [outcome] using ih _

end Aggregator

theorem WindowStage.lawful_feedOpen (block : Block) (aggregators : List Aggregator) :
    Lawful (feedOpen block aggregators).1 := by
  induction aggregators with
  | nil => exact lawful_ok _
  | cons a rest ih =>
    have fed := a.lawful_feedBlock block
    rw [feedOpen]
    split
    · exact ih
    split
    next failed => exact fed.error (congrArg Prod.fst failed)
    next => exact ih.map _

theorem MergeStage.lawful_feedAll (blocks : List Block) (aggregators : List Aggregator) :
    Lawful (feedAll blocks aggregators).1 := by
  induction aggregators with
  | nil => exact lawful_ok _
  | cons a rest ih =>
    have fed := a.lawful_feedBlocks blocks
    rw [feedAll]
    split
    next failed => exact fed.error (congrArg Prod.fst failed)
    next => exact ih

theorem Block.lawful_checkScanOrder (block : Block) (scan : Scan) :
    Lawful (block.checkScanOrder scan) := by
  rw [checkScanOrder]
  split <;> exact nofun

theorem Block.lawful_ofColumns (schema : Schema) (columns : List Column) (rows : Option Nat) :
    Lawful (ofColumns schema columns rows) := by
  unfold ofColumns
  dsimp only
  split
  · exact nofun
  split
  · split
    · split
      · exact nofun
      · split <;> exact nofun
    · exact nofun
  · exact nofun

namespace RowBuffer

theorem lawful_append (b : RowBuffer) (time : Timestamp) (values : List Scalar) :
    Lawful (b.append time values) := by
  rw [append]
  split <;> exact nofun

theorem lawful_column (type : ScalarType) (scalars : List Scalar) :
    Lawful (column type scalars) := by
  rw [column.eq_def]
  split
  · exact nofun
  split
  · exact nofun
  next c _ =>
    rw [Column.cast]
    split
    · exact lawful_ok _
    · exact (c.type.lawful_convertCells type c.cells).map _

theorem lawful_drain (fields : Schema) (columns : List (List Scalar)) :
    Lawful (drain fields columns).1 := by
  induction fields generalizing columns with
  | nil => exact lawful_ok _
  | cons field fields ih =>
    cases columns with
    | nil => exact lawful_ok _
    | cons scalars rest =>
      have made := lawful_column field.type scalars
      rw [drain]
      split
      next failed => exact made.error failed
      next => exact (ih rest).map _

theorem lawful_build (b : RowBuffer) : Lawful b.build.1 := by
  have drained := lawful_drain b.schema.tail b.columns
  rw [build]
  dsimp only
  split
  next failed => exact drained.error failed
  next => exact Block.lawful_ofColumns _ _ _

end RowBuffer
end WindowFold
