import WindowFold.Block
import WindowFold.Limits

/-! Collects rows until there are enough for a block. -/
namespace WindowFold

structure RowBuffer where
  schema : Schema
  maxRows : Nat
  maxBytes : Nat
  times : List Timestamp
  /-- The scalars of each column after the time column. -/
  columns : List (List Scalar)
  /-- Bytes that the rows added since the last block are taken to need. -/
  bytes : Nat
  deriving DecidableEq

namespace RowBuffer

/-- A limit of nothing counts as one. -/
def create (schema : Schema) (limits : Limits) : RowBuffer where
  schema := schema
  maxRows := max limits.rows 1
  maxBytes := max limits.bytes 1
  times := []
  columns := List.replicate (schema.length - 1) []
  bytes := 0

def clear (b : RowBuffer) : RowBuffer :=
  { b with times := [], columns := b.columns.map fun _ => [], bytes := 0 }

def rowCount (b : RowBuffer) : Nat := b.times.length
def isEmpty (b : RowBuffer) : Bool := b.times.isEmpty
def isFull (b : RowBuffer) : Bool := b.maxRows ≤ b.rowCount || b.maxBytes ≤ b.bytes

/-- Bytes of a timestamp. -/
def timeBytes : Nat := 8

def rowBytes (values : List Scalar) : Nat :=
  values.foldl (fun bytes value => bytes + value.byteSize) timeBytes

/-- Adds a row of as many values as there are columns. -/
def append (b : RowBuffer) (time : Timestamp) (values : List Scalar) :
    Except Failure RowBuffer :=
  if values.length ≠ b.columns.length then
    .error (.malformedBlock (.rowWidth values.length b.columns.length))
  else
    .ok { b with
      times := b.times ++ [time]
      columns := (b.columns.zip values).map fun (column, value) => column ++ [value]
      bytes := b.bytes + rowBytes values }

/-- A column of the announced type from scalars of any one type. -/
def column (type : ScalarType) (scalars : List Scalar) : Except Failure Column :=
  match scalars with
  | [] => .ok ⟨type, []⟩
  | _ =>
    match Column.ofScalars? scalars with
    | none => .error .mixedScalars
    | some c => c.cast type

/-- Turns columns of scalars into columns of a block, one after the other. A
column is given up before it is turned; those after a failing one are kept. -/
def drain : Schema → List (List Scalar) → Attempt (List (List Scalar)) (List Column)
  | field :: fields, scalars :: rest =>
    match column field.type scalars with
    | .error e => (.error e, [] :: rest)
    | .ok c =>
      let (outcome, rest) := drain fields rest
      (outcome.map (c :: ·), [] :: rest)
  | _, columns => (.ok [], columns)

/-- Makes a block of the rows and gives them up. Where a column fails, its rows
are given up in the columns up to it, and the count of bytes stays. -/
def build (b : RowBuffer) : Attempt RowBuffer Block :=
  let (outcome, columns) := drain b.schema.tail b.columns
  let taken := { b with times := [], columns := columns }
  match outcome with
  | .error e => (.error e, taken)
  | .ok made =>
    (Block.ofColumns b.schema (Column.ofTimes b.times :: made) none, { taken with bytes := 0 })

end RowBuffer
end WindowFold
