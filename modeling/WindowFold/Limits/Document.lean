import WindowFold.Limits
import WindowFold.Yaml.Document
import WindowFold.Yaml.Value

/-! Limits as documents. An absent limit has its usual value. -/
namespace WindowFold.Limits
open Yaml

def ofNode (node : Node) : Reading Limits := do
  let fields ← node.readFields
  return {
    rows := ← fields.getD "max_rows_per_block" standard.rows Node.readCount
    bytes := ← fields.getD "max_bytes_per_block" standard.bytes Node.readCount }

/-- Limits that are read but cannot be carried out are refused as well. -/
def read (text : String) : Except Failure Limits :=
  match (readDocument text).bind (Reading.run ofNode) with
  | none => .error (.invalidConfig .unreadable)
  | some limits =>
    match limits.validate with
    | .ok () => .ok limits
    | .error e => .error e

end WindowFold.Limits
