import WindowFold.Binary.Arithmetic
import WindowFold.Block

/-! The running state of each aggregate function within one window. It takes in
rows, or partial results that another accumulator gave. -/
namespace WindowFold

/-- The end of the window whose row is wanted. -/
inductive Position where
  | first
  | last
  deriving DecidableEq

namespace Position

/-- The candidate lies nearer to the wanted end. -/
def prefers : Position → (candidate current : Timestamp) → Bool
  | first, candidate, current => candidate < current
  | last, candidate, current => current < candidate

/-- The scan meets the wanted end first, so its first row settles the result. -/
def leads : Position → Scan → Bool
  | first, .ascending => true
  | last, .descending => true
  | _, _ => false

end Position

/-- The sum of the cells whose place is `lane` modulo `lanes`. -/
def laneSum (lanes lane : Nat) (cells : List (Option Binary64)) : Binary64 :=
  cells.zipIdx.foldl (fun total (cell, place) =>
    match cell with
    | some x => if place % lanes = lane then total + x else total
    | none => total) .zero

/-- The sum of a column: four interleaved sums added pairwise, or two if some
cells have no value. There is none if no cell has a value. -/
def columnSum (cells : List (Option Binary64)) : Option Binary64 :=
  if cells.all (·.isNone) then none
  else if cells.all (·.isSome) then
    some ((laneSum 4 0 cells + laneSum 4 2 cells) + (laneSum 4 1 cells + laneSum 4 3 cells))
  else some (laneSum 2 0 cells + laneSum 2 1 cells)

/-- Rows are counted in words of 64 bits, which wrap round past their end. -/
inductive Accumulator where
  | count (rows : Int64)
  | sum (total : Option Binary64)
  | avg (rows : Int64) (total : Binary64)
  /-- The least or the greatest value. -/
  | extremum (greatest : Bool) (type : ScalarType) (best : Option Scalar)
  /-- The value of largest size beside its size as a float. -/
  | extreme (type : ScalarType) (best : Option (Binary64 × Scalar))
  /-- The value at one end of the window, with its time. -/
  | valueAt (position : Position) (scan : Scan) (type : ScalarType)
      (found : Option (Timestamp × Scalar))
  /-- The time at one end of the window. -/
  | timeAt (position : Position) (scan : Scan) (found : Option Timestamp)
  deriving DecidableEq

namespace Accumulator

/-- A fresh accumulator. Sums, averages and sizes are of numbers only. -/
def create (kind : AggregationKind) (type : ScalarType) (scan : Scan) :
    Except Failure Accumulator :=
  if kind.needsNumbers && !type.isNumeric then .error (.unsupported (.aggregationOver kind type))
  else .ok <|
    match kind with
    | .count => .count 0
    | .sum => .sum none
    | .avg => .avg 0 .zero
    | .extreme => .extreme type none
    | .minValue => .extremum false type none
    | .maxValue => .extremum true type none
    | .minTime => .timeAt .first scan none
    | .maxTime => .timeAt .last scan none
    | .firstValue => .valueAt .first scan type none
    | .lastValue => .valueAt .last scan type none

def reset : Accumulator → Accumulator
  | count _ => count 0
  | sum _ => sum none
  | avg _ _ => avg 0 .zero
  | extremum greatest type _ => extremum greatest type none
  | extreme type _ => extreme type none
  | valueAt position scan type _ => valueAt position scan type none
  | timeAt position scan _ => timeAt position scan none

/-- No further row of the window can change the result. -/
def isSettled : Accumulator → Bool
  | valueAt position scan _ found => found.isSome && position.leads scan
  | timeAt position scan found => found.isSome && position.leads scan
  | _ => false

def partialTypes : Accumulator → List ScalarType
  | count _ => [.int64]
  | sum _ => [.float64]
  | avg _ _ => [.int64, .float64]
  | extremum _ type _ => [type]
  | extreme type _ => [type]
  | valueAt _ _ type _ => [type, .int64]
  | timeAt _ _ _ => [.int64]

def resultType : Accumulator → ScalarType
  | count _ => .int64
  | sum _ => .float64
  | avg _ _ => .float64
  | extremum _ type _ => type
  | extreme type _ => type
  | valueAt _ _ type _ => type
  | timeAt _ _ _ => .int64

/-- The partial result, one scalar per column of it. -/
def partialResult : Accumulator → List Scalar
  | count rows => [.int64 rows.toInt]
  | sum total => [⟨.float64, total⟩]
  | avg rows total => [.int64 rows.toInt, .float64 total]
  | extremum _ type best => [best.getD (.null type)]
  | extreme type best => [(best.map (·.2)).getD (.null type)]
  | valueAt _ _ type found =>
    [(found.map (·.2)).getD (.null type), ⟨.int64, found.map (·.1)⟩]
  | timeAt _ _ found => [⟨.int64, found⟩]

def result : Accumulator → Scalar
  | count rows => .int64 rows.toInt
  | sum total => ⟨.float64, total⟩
  | avg rows total =>
    if rows = 0 then .null .float64 else .float64 (total / Binary.ofInt rows.toInt)
  | extremum _ type best => best.getD (.null type)
  | extreme type best => (best.map (·.2)).getD (.null type)
  | valueAt _ _ type found => (found.map (·.2)).getD (.null type)
  | timeAt _ _ found => ⟨.int64, found⟩

/-- A first total counts from zero. -/
def addTotal (total : Option Binary64) (x : Binary64) : Option Binary64 :=
  some (total.getD .zero + x)

/-- The first candidate stays unless a later one is strictly better; one
without a value is passed over. -/
def offerExtremum (greatest : Bool) (best : Option Scalar) (candidate : Scalar) : Option Scalar :=
  if candidate.isNull then best
  else
    match best with
    | none => some candidate
    | some current =>
      if (if greatest then current.less candidate else candidate.less current)
      then some candidate else best

/-- Of two values of one size the greater stays. -/
def offerExtreme (best : Option (Binary64 × Scalar)) (size : Binary64) (candidate : Scalar) :
    Option (Binary64 × Scalar) :=
  match best with
  | none => some (size, candidate)
  | some (current, _) =>
    if size.abs.exceeds current.abs || (size.abs.equals current.abs && size.exceeds current)
    then some (size, candidate) else best

def offerValue (position : Position) (found : Option (Timestamp × Scalar))
    (time : Timestamp) (candidate : Scalar) : Option (Timestamp × Scalar) :=
  match found with
  | none => some (time, candidate)
  | some (current, _) => if position.prefers time current then some (time, candidate) else found

def offerTime (position : Position) (found : Option Timestamp) (time : Timestamp) :
    Option Timestamp :=
  match found with
  | none => some time
  | some current => if position.prefers time current then some time else found

/-- The row with a value that is nearest to the wanted end, for rows in scan order. -/
def pickRow (position : Position) (scan : Scan) (values : Column) : Option (Nat × Scalar) :=
  let valued := values.scalars.zipIdx.filter fun (s, _) => !s.isNull
  let picked := if position.leads scan then valued.head? else valued.getLast?
  picked.map fun (s, row) => (row, s)

/-- The picked row with its time. A row without a time is an index past the end. -/
def pickTimed (position : Position) (scan : Scan) (times : List Timestamp) (values : Column) :
    Except Failure (Option (Timestamp × Scalar)) :=
  match pickRow position scan values with
  | none => .ok none
  | some (row, s) =>
    match times[row]? with
    | some time => .ok (some (time, s))
    | none => .error .outOfBounds

/-- Takes in rows in scan order; the time of each value stands in the same place. -/
def addRows (acc : Accumulator) (times : List Timestamp) (values : Column) :
    Except Failure Accumulator :=
  match acc with
  | count rows => .ok (count (rows + .ofInt (values.length - values.nullCount)))
  | sum total =>
    match values.type.convertCells .float64 values.cells with
    | .error e => .error e
    | .ok cells =>
      match columnSum cells with
      | none => .ok acc
      | some x => .ok (sum (addTotal total x))
  | avg rows total =>
    match values.type.convertCells .float64 values.cells with
    | .error e => .error e
    | .ok cells =>
      .ok (avg (rows + .ofNat (cells.countP (·.isSome)))
        (total + (columnSum cells).getD .zero))
  | extremum greatest type best =>
    .ok (extremum greatest type (values.scalars.foldl (offerExtremum greatest) best))
  | extreme type best =>
    match values.type.convertCells .float64 values.cells with
    | .error e => .error e
    | .ok cells =>
      .ok (extreme type ((cells.zip values.scalars).foldl (fun best (cell, s) =>
        if s.isNull then best else offerExtreme best (cell.getD .zero) s) best))
  | valueAt position scan type found =>
    if acc.isSettled then .ok acc
    else
      match pickTimed position scan times values with
      | .error e => .error e
      | .ok none => .ok acc
      | .ok (some (time, s)) => .ok (valueAt position scan type (offerValue position found time s))
  | timeAt position scan found =>
    if acc.isSettled then .ok acc
    else
      match pickTimed position scan times values with
      | .error e => .error e
      | .ok none => .ok acc
      | .ok (some (time, _)) => .ok (timeAt position scan (offerTime position found time))

private def width (function : String) (expected : Nat) (columns : List Scalar) : Failure :=
  .malformedBlock (.partialWidth function expected columns.length)

/-- Takes in a partial result. An average counts the rows of one even where it
then cannot read the total. -/
def addPartial (acc : Accumulator) (columns : List Scalar) : Attempt Accumulator Unit :=
  match acc with
  | count rows =>
    match columns with
    | [n] =>
      match n.toInt64? with
      | .error e => (.error e, acc)
      | .ok n => (.ok (), count (rows + .ofInt (n.getD 0)))
    | _ => (.error (width "count" 1 columns), acc)
  | sum total =>
    match columns with
    | [x] =>
      match x.toFloat64? with
      | .error e => (.error e, acc)
      | .ok none => (.ok (), acc)
      | .ok (some x) => (.ok (), sum (addTotal total x))
    | _ => (.error (width "sum" 1 columns), acc)
  | avg rows total =>
    match columns with
    | [n, x] =>
      match n.toInt64? with
      | .error e => (.error e, acc)
      | .ok n =>
        let n := n.getD 0
        if n ≤ 0 then (.ok (), acc)
        else
          match x.toFloat64? with
          | .error e => (.error e, avg (rows + .ofInt n) total)
          | .ok x => (.ok (), avg (rows + .ofInt n) (total + x.getD .zero))
    | _ => (.error (width "avg" 2 columns), acc)
  | extremum greatest type best =>
    match columns with
    | [s] => (.ok (), extremum greatest type (offerExtremum greatest best s))
    | _ => (.error (width "min_value/max_value" 1 columns), acc)
  | extreme type best =>
    match columns with
    | [s] =>
      match s.toFloat64? with
      | .error e => (.error e, acc)
      | .ok none => (.ok (), acc)
      | .ok (some size) => (.ok (), extreme type (offerExtreme best size s))
    | _ => (.error (width "extreme" 1 columns), acc)
  | valueAt position scan type found =>
    match columns with
    | [s, time] =>
      if s.isNull then (.ok (), acc)
      else
        match time.toInt64? with
        | .error e => (.error e, acc)
        | .ok none => (.ok (), acc)
        | .ok (some time) => (.ok (), valueAt position scan type (offerValue position found time s))
    | _ => (.error (width "first_value/last_value" 2 columns), acc)
  | timeAt position scan found =>
    match columns with
    | [time] =>
      match time.toInt64? with
      | .error e => (.error e, acc)
      | .ok none => (.ok (), acc)
      | .ok (some time) => (.ok (), timeAt position scan (offerTime position found time))
    | _ => (.error (width "min_time/max_time" 1 columns), acc)

end Accumulator
end WindowFold
