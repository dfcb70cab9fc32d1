import WindowFold.Aggregation.Accumulator
import WindowFold.Block.Slicing

/-! One aggregation of a query, evaluated window by window. -/
namespace WindowFold

/-- What to aggregate: a function, its phase, and the columns it reads. -/
structure AggregationSpec where
  kind : AggregationKind
  step : AggregationStep
  /-- One column of rows, or one column per column of the partial result. -/
  inputs : List Nat
  name : Option String
  deriving DecidableEq

structure Aggregator where
  name : String
  kind : AggregationKind
  step : AggregationStep
  inputs : List Nat
  accumulator : Accumulator
  scan : Scan
  range : TimeRange
  deriving DecidableEq

namespace Aggregator

/-- The first column read decides the type, and names the result if nothing else does. -/
def create (spec : AggregationSpec) (schema : Schema) (scan : Scan) :
    Except Failure Aggregator :=
  match spec.inputs with
  | [] => .error (.invalidConfig (.noInputColumn spec.kind))
  | first :: _ =>
    match schema[first]? with
    | none => .error (.invalidConfig (.inputColumnOutOfRange spec.kind first schema.length))
    | some field =>
      match Accumulator.create spec.kind field.type scan with
      | .error e => .error e
      | .ok accumulator =>
        let expected := if spec.step.readsRows then 1 else accumulator.partialTypes.length
        if spec.inputs.length ≠ expected then
          .error (.invalidConfig
            (.inputColumnCount spec.kind spec.step expected spec.inputs.length))
        else
          .ok {
            name := spec.name.getD (spec.kind.name ++ "(" ++ field.name ++ ")")
            kind := spec.kind
            step := spec.step
            inputs := spec.inputs
            accumulator := accumulator
            scan := scan
            range := .always }

/-- Moves on to another window, forgetting the last one. -/
def enter (a : Aggregator) (range : TimeRange) : Aggregator :=
  { a with range := range, accumulator := a.accumulator.reset }

def isSettled (a : Aggregator) : Bool := a.accumulator.isSettled

/-- Takes in partial results one by one; the ones before a failing one stay in. -/
def feedPartials (a : Aggregator) : List (List Scalar) → Attempt Aggregator Unit
  | [] => (.ok (), a)
  | columns :: rest =>
    let (outcome, accumulator) := a.accumulator.addPartial columns
    let a := { a with accumulator := accumulator }
    match outcome with
    | .error e => (.error e, a)
    | .ok () => a.feedPartials rest

/-- Takes in the rows of a block from `start` up to `stop`. No row, no column needed. -/
def feedRows (a : Aggregator) (block : Block) (start stop : Nat) : Attempt Aggregator Unit :=
  if stop ≤ start then (.ok (), a)
  else
    match a.inputs.find? (block.columnCount ≤ ·) with
    | some column =>
      (.error (.malformedBlock (.missingColumn a.name column block.columnCount)), a)
    | none =>
      let rows := block.extract start (stop - start)
      let columns := a.inputs.filterMap rows.column?
      if a.step.readsRows then
        match columns with
        | [] => (.error .outOfBounds, a)
        | values :: _ =>
          match a.accumulator.addRows rows.times values with
          | .error e => (.error e, a)
          | .ok accumulator => (.ok (), { a with accumulator := accumulator })
      else
        a.feedPartials ((List.range rows.rowCount).map fun row =>
          columns.filterMap (·.scalar? row))

/-- Takes in the rows of a block within the window, and tells where the rows
after them begin. -/
def feedBlock (a : Aggregator) (block : Block) : Attempt Aggregator Nat :=
  let (start, stop) := Block.rowsWithin block.times a.range a.scan
  let (outcome, a) := a.feedRows block start stop
  (outcome.map fun () => stop, a)

/-- Takes in several blocks; the ones before a failing one stay in. -/
def feedBlocks (a : Aggregator) : List Block → Attempt Aggregator Unit
  | [] => (.ok (), a)
  | block :: rest =>
    let (outcome, a) := a.feedBlock block
    match outcome with
    | .error e => (.error e, a)
    | .ok _ => a.feedBlocks rest

def outputTypes (a : Aggregator) : List ScalarType :=
  if a.step.givesResult then [a.accumulator.resultType] else a.accumulator.partialTypes

/-- One output column has the aggregation's name; several add what they hold. -/
def outputFields (a : Aggregator) : Schema :=
  match a.outputTypes with
  | [type] => [⟨a.name, type, true⟩]
  | types => types.zipIdx.map fun (type, place) =>
    ⟨a.name ++ "." ++ a.kind.partialSuffixes.getD place "value", type, true⟩

/-- What the window has come to, one scalar per output column. -/
def output (a : Aggregator) : List Scalar :=
  if a.step.givesResult then [a.accumulator.result] else a.accumulator.partialResult

end Aggregator
end WindowFold
