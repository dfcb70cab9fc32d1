import WindowFold.Scalar.Cast

/-! Blocks: rows in time order, kept by columns. -/
namespace WindowFold

/-- What is announced of a column. -/
structure Field where
  name : String
  type : ScalarType
  nullable : Bool
  deriving DecidableEq

abbrev Schema := List Field

namespace Schema

def types (schema : Schema) : List ScalarType := schema.map (·.type)

/-- Column by column, the types are the same; names may differ. -/
def agrees (schema other : Schema) : Bool := schema.types = other.types

end Schema

/-- Cells of one type, with or without a value. -/
structure Column where
  type : ScalarType
  cells : List (Option type.Value)
  deriving DecidableEq

namespace Column

def length (c : Column) : Nat := c.cells.length
def nullCount (c : Column) : Nat := c.cells.countP (·.isNone)
def scalars (c : Column) : List Scalar := c.cells.map (⟨c.type, ·⟩)
def scalar? (c : Column) (row : Nat) : Option Scalar := c.cells[row]?.map (⟨c.type, ·⟩)

/-- The cells from `start` on, `count` of them. -/
def extract (c : Column) (start count : Nat) : Column :=
  { c with cells := (c.cells.drop start).take count }

/-- The cells of one column from scalars, if all have the first one's type. -/
def ofScalars? : List Scalar → Option Column
  | [] => none
  | s :: rest =>
    ((s :: rest).mapM fun t : Scalar => t.valueAs? s.type).map (fun cells => ⟨s.type, cells⟩)

def cast (c : Column) (target : ScalarType) : Except Failure Column :=
  if c.type = target then .ok c
  else (c.type.convertCells target c.cells).map (fun cells => ⟨target, cells⟩)

def ofTimes (times : List Timestamp) : Column := ⟨.int64, times.map some⟩

end Column

/-- A named column of a block. -/
structure Series where
  name : String
  nullable : Bool
  column : Column
  deriving DecidableEq

def Series.field (s : Series) : Field := ⟨s.name, s.column.type, s.nullable⟩

/-- The first column holds the time of each row; every other column has as many
cells as there are times. -/
structure Block where
  timeName : String
  timeNullable : Bool
  times : List Timestamp
  series : List Series
  aligned : ∀ s ∈ series, s.column.length = times.length
  deriving DecidableEq

namespace Block

/-- The name of the time column of blocks that are made here. -/
def timeColumn : String := "time"
def timeField : Field := ⟨timeColumn, .int64, false⟩

def rowCount (b : Block) : Nat := b.times.length
def isEmpty (b : Block) : Bool := b.times.isEmpty
def startTime? (b : Block) : Option Timestamp := b.times.head?

def schema (b : Block) : Schema :=
  ⟨b.timeName, .int64, b.timeNullable⟩ :: b.series.map Series.field

def columns (b : Block) : List Column :=
  Column.ofTimes b.times :: b.series.map (·.column)

def columnCount (b : Block) : Nat := b.series.length + 1

def column? (b : Block) (index : Nat) : Option Column := b.columns[index]?

/-- Columns under a schema: as many as it has fields, of its types, all of the
given length, and without nulls where it allows none. -/
def fits (schema : Schema) (columns : List Column) (rows : Nat) : Bool :=
  schema.length = columns.length
    && (schema.zip columns).all fun (field, column) =>
      field.type = column.type && column.length = rows
        && (field.nullable || column.nullCount = 0)

/-- A block of columns under a schema. The first column must be a time column
without nulls. Without any column, `rows` must say how many rows there are. -/
def ofColumns (schema : Schema) (columns : List Column) (rows : Option Nat) :
    Except Failure Block :=
  let count := rows.getD ((columns.head?.map Column.length).getD 0)
  if columns.isEmpty && rows.isNone || !fits schema columns count then .error .columnMismatch
  else
    match schema, columns with
    | field :: fields, first :: rest =>
      match first with
      | ⟨.integer .int64, cells⟩ =>
        let times := cells.filterMap id
        if times.length ≠ cells.length then .error (.malformedBlock .nullTimes)
        else
          let series := (fields.zip rest).map fun (f, c) => Series.mk f.name f.nullable c
          if aligned : ∀ s ∈ series, s.column.length = times.length then
            .ok ⟨field.name, field.nullable, times, series, aligned⟩
          else .error .columnMismatch
      | ⟨type, _⟩ => .error (.malformedBlock (.timeColumnType type))
    | _, _ => .error (.malformedBlock .noTimeColumn)

/-- A block of times and named columns that may hold nulls. -/
def ofTimes (times : List Timestamp) (columns : List (String × Column)) :
    Except Failure Block :=
  let series := columns.map fun (name, column) => Series.mk name true column
  if aligned : ∀ s ∈ series, s.column.length = times.length then
    .ok ⟨timeColumn, false, times, series, aligned⟩
  else .error .columnMismatch

/-- The first place where the scan's order is broken. -/
def firstDisorder? (scan : Scan) : List Timestamp → Option Nat
  | t :: u :: rest =>
    if scan.inOrder t u then (firstDisorder? scan (u :: rest)).map (· + 1) else some 0
  | _ => none

def checkScanOrder (b : Block) (scan : Scan) : Except Failure Unit :=
  match firstDisorder? scan b.times with
  | none => .ok ()
  | some row => .error (.scanOrder scan row)

end Block
end WindowFold
