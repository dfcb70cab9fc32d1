import WindowFold.Aggregation.Aggregator
import WindowFold.Limits
import WindowFold.Operator.Tree
import WindowFold.Text.Lowercase
import WindowFold.Window.Series

/-! A query: the aggregations to make, over which windows, in which scan; and
the stages that carry it out. -/
namespace WindowFold

/-- The function of a name, or of a short form of it, in any case. -/
def AggregationKind.ofWord (word : String) : Except Failure AggregationKind :=
  let word := Text.lowercase word
  match ofAlias? word with
  | some kind => .ok kind
  | none => .error (.unsupported (.function word))

structure Query where
  aggregations : List AggregationSpec
  /-- Without a grouping all rows make one window. -/
  grouping : Option Grouping
  scan : Scan
  /-- A merge gives a row for a window that the end of the query cuts short. -/
  keepsClipped : Bool
  deriving DecidableEq

namespace Query

def render (q : Query) : String :=
  ", ".intercalate (q.aggregations.map (·.kind.name))

def aggregators (q : Query) (schema : Schema) : Except Failure (List Aggregator) :=
  if q.aggregations.isEmpty then .error (.invalidConfig .noAggregations)
  else q.aggregations.mapM fun spec => Aggregator.create spec schema q.scan

/-- A window that the end of the query cuts short always has a row here. -/
def windowStage (q : Query) (context : Context) (schema : Schema) :
    Except Failure WindowStage :=
  match q.aggregators schema with
  | .error e => .error e
  | .ok aggregators =>
    match WindowSeries.ofGrouping? q.grouping true with
    | .error e => .error e
    | .ok series => .ok (.create context aggregators (.start series q.scan))

/-- The first child whose column types are not those of the first child. -/
def strangeChild? : List Schema → Option Nat
  | [] => none
  | first :: rest => (rest.findIdx? fun schema => !schema.agrees first).map (· + 1)

def mergeStage (q : Query) (context : Context) (children : List Schema) :
    Except Failure MergeStage :=
  match children with
  | [] => .error (.invalidConfig .noChild)
  | first :: _ =>
    match strangeChild? children with
    | some child => .error (.invalidConfig (.childColumns child))
    | none =>
      match q.aggregators first with
      | .error e => .error e
      | .ok aggregators =>
        match WindowSeries.ofGrouping? q.grouping q.keepsClipped with
        | .error e => .error e
        | .ok series => .ok (.create context aggregators (.start series q.scan))

end Query
end WindowFold
