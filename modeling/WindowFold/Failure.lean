import WindowFold.Aggregation.Kind
import WindowFold.Scalar.Type
import WindowFold.Time

/-! What can go wrong, by cause, and the wording of each cause. -/
namespace WindowFold

/-- A broken rule of pulling. -/
inductive Breach where
  | pulledAfterClose
  | readinessNotChecked
  | pulledTwice
  deriving DecidableEq

/-- A block or a row that does not have the columns it should have. -/
inductive Malformation where
  | noTimeColumn
  | timeColumnType (type : ScalarType)
  | nullTimes
  | rowWidth (values columns : Nat)
  | missingColumn (aggregation : String) (column columns : Nat)
  | partialWidth (function : String) (expected columns : Nat)
  | foreignBlock (operator : String)
  deriving DecidableEq

/-- A setting that cannot be carried out. -/
inductive Misconfiguration where
  | noRowsPerBlock
  | noBytesPerBlock
  | emptyGrouping (start stop : Timestamp)
  | lengthNotPositive
  | monthOutOfRange (start : Timestamp) (months : Nat)
  | noInputColumn (kind : AggregationKind)
  | inputColumnOutOfRange (kind : AggregationKind) (column columns : Nat)
  | inputColumnCount (kind : AggregationKind) (step : AggregationStep) (expected columns : Nat)
  | noAggregations
  | childColumns (child : Nat)
  | noChild
  | childCount (operator expected : String) (children : Nat)
  | noBlocks
  | unreadable
  deriving DecidableEq

/-- A request outside what is offered. -/
inductive Unsupported where
  | mixedUnits
  | overlappingWindows
  | aggregationOver (kind : AggregationKind) (type : ScalarType)
  | function (name : String)
  | other (text : String)
  deriving DecidableEq

inductive Failure where
  | protocolViolation (operator : String) (breach : Breach)
  | malformedBlock (cause : Malformation)
  /-- Row `row` and the one after it are not in scan order. -/
  | scanOrder (scan : Scan) (row : Nat)
  | invalidConfig (cause : Misconfiguration)
  | unsupported (cause : Unsupported)
  /-- Columns of other types, counts or lengths than an operation admits. -/
  | columnMismatch
  /-- Scalars of several types where one type is needed. -/
  | mixedScalars
  /-- An index past the end. -/
  | outOfBounds
  deriving DecidableEq

def Breach.message : Breach → String
  | pulledAfterClose => "next() after close()"
  | readinessNotChecked => "pulled again before readiness was checked"
  | pulledTwice => "pulled twice"

def Malformation.message : Malformation → String
  | noTimeColumn => "block has no time column"
  | timeColumnType type => "time column must be Int64, got " ++ type.name
  | nullTimes => "time column contains nulls"
  | rowWidth values columns =>
    "result row has " ++ toString values ++ " values, schema expects " ++ toString columns
  | missingColumn aggregation column columns =>
    aggregation ++ " reads column " ++ toString column ++ ", block has "
      ++ toString columns ++ " columns"
  | partialWidth function expected columns =>
    function ++ " expects " ++ toString expected ++ " intermediate columns, got "
      ++ toString columns
  | foreignBlock operator =>
    operator ++ " got a block whose columns do not match its schema"

def Misconfiguration.message : Misconfiguration → String
  | noRowsPerBlock => "max_rows_per_block must be positive"
  | noBytesPerBlock => "max_bytes_per_block must be positive"
  | emptyGrouping start stop =>
    "group by time range [" ++ toString start ++ ", " ++ toString stop ++ ") is empty"
  | lengthNotPositive => "interval and sliding step must be positive"
  | monthOutOfRange start months =>
    "timestamp " ++ toString start ++ " + " ++ toString months ++ " months is out of range"
  | noInputColumn kind => kind.name ++ " has no input column"
  | inputColumnOutOfRange kind column columns =>
    kind.name ++ " reads column " ++ toString column ++ ", input has "
      ++ toString columns ++ " columns"
  | inputColumnCount kind step expected columns =>
    kind.name ++ " at step " ++ step.title ++ " needs " ++ toString expected
      ++ " input columns, got " ++ toString columns
  | noAggregations => "no aggregate expressions"
  | childColumns child => "child " ++ toString child ++ " column types differ from child 0"
  | noChild => "merge aggregate needs at least one child"
  | childCount operator expected children =>
    operator ++ " expects " ++ expected ++ " children, got " ++ toString children
  | noBlocks => "values operator needs at least one block"
  | unreadable => "unreadable document"

def Unsupported.message : Unsupported → String
  | mixedUnits => "interval and sliding step must use the same unit"
  | overlappingWindows => "sliding step shorter than interval produces overlapping windows"
  | aggregationOver kind type => kind.name ++ " over " ++ type.name
  | function name => "aggregate function " ++ name
  | other text => text

namespace Failure

def message : Failure → String
  | protocolViolation operator breach =>
    "protocol violation in " ++ operator ++ ": " ++ breach.message
  | malformedBlock cause => "malformed block: " ++ cause.message
  | scanOrder scan row =>
    "block timestamps are not " ++ scan.word ++ " (rows " ++ toString row ++ " and "
      ++ toString (row + 1) ++ ")"
  | invalidConfig cause => "invalid configuration: " ++ cause.message
  | unsupported cause => "unsupported: " ++ cause.message
  | columnMismatch => "columns do not match"
  | mixedScalars => "scalars of several types"
  | outOfBounds => "index out of bounds"

end Failure

/-- What an attempt gives, and the state that it leaves behind, also where it fails. -/
abbrev Attempt (State Result : Type) : Type := Except Failure Result × State

end WindowFold
