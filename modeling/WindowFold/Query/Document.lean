import WindowFold.Query
import WindowFold.Yaml.Document
import WindowFold.Yaml.Layout
import WindowFold.Yaml.Value

/-! Queries as documents. Writing names every setting; reading takes settings in
any order, gives those that are absent their usual values, and passes over others. -/
namespace WindowFold
open Yaml

namespace Duration

def toNode : Duration → Node
  | millis count => .mapping [(.plain "millis", .plain (toString count))]
  | months count => .mapping [(.plain "months", .plain (toString count))]

/-- A mapping from the unit to the count. -/
def ofNode (node : Node) : Reading Duration := do
  match ← node.readSole with
  | ("millis", count) => return millis (← count.readInteger)
  | ("months", count) => return months (← count.readNatural UInt32.size)
  | _ => Reading.refuse

end Duration

namespace Grouping

def toNode (g : Grouping) : Node :=
  .mapping [
    (.plain "start_time", .plain (toString g.start)),
    (.plain "end_time", .plain (toString g.stop)),
    (.plain "interval", g.interval.toNode),
    (.plain "sliding_step", .ofOptional Duration.toNode g.slidingStep),
    (.plain "left_closed_right_open", .ofBoolean g.leftClosed)]

def ofNode (node : Node) : Reading Grouping := do
  let fields ← node.readFields
  return {
    start := ← fields.required "start_time" Node.readInteger
    stop := ← fields.required "end_time" Node.readInteger
    interval := ← fields.required "interval" Duration.ofNode
    slidingStep := ← fields.getD "sliding_step" none (Node.readOptional Duration.ofNode)
    leftClosed := ← fields.getD "left_closed_right_open" true Node.readBoolean }

end Grouping

namespace AggregationSpec

def toNode (spec : AggregationSpec) : Node :=
  .mapping [
    (.plain "kind", .plain spec.kind.name),
    (.plain "step", .plain spec.step.name),
    (.plain "input_columns", .sequence (spec.inputs.map fun column => .plain (toString column))),
    (.plain "name", .ofOptional Node.ofText spec.name)]

def ofNode (node : Node) : Reading AggregationSpec := do
  let fields ← node.readFields
  return {
    kind := ← fields.required "kind" (Node.readWord AggregationKind.ofName?)
    step := ← fields.getD "step" .single (Node.readWord AggregationStep.ofName?)
    inputs := ← fields.required "input_columns" (Node.readList Node.readCount)
    name := ← fields.getD "name" none (Node.readOptional Node.readText) }

end AggregationSpec

namespace Query

def toNode (q : Query) : Node :=
  .mapping [
    (.plain "aggregations", .sequence (q.aggregations.map AggregationSpec.toNode)),
    (.plain "group_by_time", .ofOptional Grouping.toNode q.grouping),
    (.plain "ascending", .ofBoolean (q.scan = .ascending)),
    (.plain "output_partial_window", .ofBoolean q.keepsClipped)]

def ofNode (node : Node) : Reading Query := do
  let fields ← node.readFields
  return {
    aggregations := ← fields.required "aggregations" (Node.readList AggregationSpec.ofNode)
    grouping := ← fields.getD "group_by_time" none (Node.readOptional Grouping.ofNode)
    scan := if ← fields.getD "ascending" true Node.readBoolean then .ascending else .descending
    keepsClipped := ← fields.getD "output_partial_window" false Node.readBoolean }

def write (q : Query) : String := q.toNode.render

def read (text : String) : Except Failure Query :=
  match (readDocument text).bind (Reading.run ofNode) with
  | some q => .ok q
  | none => .error (.invalidConfig .unreadable)

end Query
end WindowFold
