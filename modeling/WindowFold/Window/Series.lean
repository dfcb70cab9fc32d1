import WindowFold.Calendar
import WindowFold.Window.Grouping

/-! The windows of a query in time order, and the cursor that walks them in
either direction. -/
namespace WindowFold

/-- The times of one window, and the time written to its output row. -/
structure Window where
  range : TimeRange
  outputTime : Timestamp
  deriving DecidableEq

/-- The window between two bounds, of which it has the left one or the right. -/
def Window.between (leftClosed : Bool) (start stop : Timestamp) : Window :=
  if leftClosed then ⟨⟨start, stop - 1⟩, start⟩ else ⟨⟨start + 1, stop⟩, stop⟩

inductive WindowSeries where
  /-- One window over all time. -/
  | whole
  /-- Windows of one length, `step` apart. -/
  | fixed (start stop : Timestamp) (interval step : Int) (leftClosed : Bool) (count : Nat)
  /-- Windows with the given bounds. -/
  | listed (start : Timestamp) (leftClosed : Bool) (bounds : List (Timestamp × Timestamp))
  deriving DecidableEq

namespace WindowSeries

def count : WindowSeries → Nat
  | whole => 1
  | fixed _ _ _ _ _ count => count
  | listed _ _ bounds => bounds.length

/-- The output time before any window has been met. -/
def initialTime : WindowSeries → Timestamp
  | whole => 0
  | fixed start .. => start
  | listed start _ _ => start

/-- The window with the given place in time order. A fixed window whose end
would pass the end of the query ends there. -/
def window (series : WindowSeries) (index : Nat) : Window :=
  match series with
  | whole => ⟨.always, 0⟩
  | fixed start stop interval step leftClosed _ =>
    let first := start + index * step
    .between leftClosed first (min (Timestamp.plus first interval) stop)
  | listed start leftClosed bounds =>
    let (first, last) := bounds.getD index (start, start)
    .between leftClosed first last

/-- How many windows start before `stop`. The last is not counted if `stop`
cuts it short and no part of a window is wanted. -/
def fixedCount (start stop : Timestamp) (interval step : Int) (keepClipped : Bool) : Nat :=
  let count := (stop - start + step - 1) / step
  let lastStart := start + (count - 1) * step
  if stop < lastStart + interval && !keepClipped then (count - 1).toNat else count.toNat

/-- `months` after a start, which is `moment` in the calendar. -/
def afterMonths (start : Timestamp) (moment : Calendar.Moment) (months : Nat) :
    Except Failure Timestamp :=
  match moment.later? months with
  | some t => .ok t
  | none => .error (.invalidConfig (.monthOutOfRange start months))

/-- The bounds of calendar windows from `offset` months after the start on, put
before those found already. `fuel` bounds the number of windows. -/
def monthBoundsFrom (start stop : Timestamp) (moment : Calendar.Moment) (interval step : Nat)
    (keepClipped : Bool) : (fuel offset : Nat) → (found : List (Timestamp × Timestamp)) →
    Except Failure (List (Timestamp × Timestamp))
  | 0, _, found => .ok found.reverse
  | fuel + 1, offset, found =>
    match afterMonths start moment offset with
    | .error e => .error e
    | .ok first =>
      if stop ≤ first then .ok found.reverse
      else
        match afterMonths start moment (offset + interval) with
        | .error e => .error e
        | .ok last =>
          if stop < last then
            .ok (if keepClipped then (first, stop) :: found else found).reverse
          else monthBoundsFrom start stop moment interval step keepClipped fuel (offset + step)
            ((first, last) :: found)

/-- No calendar time is this many months after another. -/
def monthLimit : Nat := 2147483649

/-- The bounds of all calendar windows; a start outside the supported years has none. -/
def monthBounds (start stop : Timestamp) (interval step : Nat) (keepClipped : Bool) :
    Except Failure (List (Timestamp × Timestamp)) :=
  if Calendar.covers start then
    monthBoundsFrom start stop (.of start) interval step keepClipped monthLimit 0 []
  else .error (.invalidConfig (.monthOutOfRange start 0))

def ofGrouping (g : Grouping) (keepClipped : Bool) : Except Failure WindowSeries :=
  match g.validate with
  | .error e => .error e
  | .ok () =>
    match g.interval, g.step with
    | .millis interval, .millis step =>
      .ok (.fixed g.start g.stop interval step g.leftClosed
        (fixedCount g.start g.stop interval step keepClipped))
    | .months interval, .months step =>
      (monthBounds g.start g.stop interval step keepClipped).map
        (.listed g.start g.leftClosed)
    | _, _ => .error (.unsupported .mixedUnits)

def ofGrouping? (g : Option Grouping) (keepClipped : Bool) : Except Failure WindowSeries :=
  match g with
  | none => .ok .whole
  | some g => ofGrouping g keepClipped

/-- Every window, in time order. -/
def toList (series : WindowSeries) : List Window :=
  (List.range series.count).map series.window

/-- Every window, as a scan meets them. -/
def scanned (series : WindowSeries) (scan : Scan) : List Window :=
  match scan with
  | .ascending => series.toList
  | .descending => series.toList.reverse

end WindowSeries

/-- A walk over windows in scan order. It only moves on. -/
structure Cursor where
  series : WindowSeries
  scan : Scan
  /-- Windows met so far. -/
  emitted : Nat
  /-- The output time of the last window met. -/
  outputTime : Timestamp
  deriving DecidableEq

namespace Cursor

def start (series : WindowSeries) (scan : Scan) : Cursor := ⟨series, scan, 0, series.initialTime⟩

def hasNext (c : Cursor) : Bool := c.emitted < c.series.count

/-- Windows not met yet. -/
def remaining (c : Cursor) : Nat := c.series.count - c.emitted

def next? (c : Cursor) : Option (Window × Cursor) :=
  if c.hasNext then
    let index :=
      match c.scan with
      | .ascending => c.emitted
      | .descending => c.series.count - 1 - c.emitted
    let window := c.series.window index
    some (window, { c with emitted := c.emitted + 1, outputTime := window.outputTime })
  else none

/-- Up to `n` windows, and the cursor after them. -/
def take : Nat → Cursor → List Window × Cursor
  | 0, c => ([], c)
  | n + 1, c =>
    match c.next? with
    | none => ([], c)
    | some (window, c) =>
      let (windows, c) := take n c
      (window :: windows, c)

end Cursor
end WindowFold
