/-! Timestamps, the two scan directions, and closed ranges of time. -/
namespace WindowFold

/-- Milliseconds since the epoch. Inputs are signed 64-bit counts. -/
abbrev Timestamp := Int

namespace Timestamp

def least : Timestamp := -9223372036854775808
def greatest : Timestamp := 9223372036854775807

/-- A sum that would pass the last timestamp stops there. -/
def plus (t : Timestamp) (length : Int) : Timestamp :=
  max least (min greatest (t + length))

end Timestamp

/-- The order in which rows are read and windows are visited. -/
inductive Scan where
  | ascending
  | descending
  deriving DecidableEq

namespace Scan

def word : Scan → String
  | ascending => "ascending"
  | descending => "descending"

/-- Two times that a scan may meet one after the other; equal times may. -/
def inOrder : Scan → Timestamp → Timestamp → Bool
  | ascending, earlier, later => earlier ≤ later
  | descending, earlier, later => later ≤ earlier

def reverse : Scan → Scan
  | ascending => descending
  | descending => ascending

end Scan

/-- The times from `min` to `max`, both included. -/
structure TimeRange where
  min : Timestamp
  max : Timestamp
  deriving DecidableEq

namespace TimeRange

/-- The range that no time lies outside of. -/
def always : TimeRange := ⟨Timestamp.least, Timestamp.greatest⟩

def contains (range : TimeRange) (t : Timestamp) : Bool :=
  range.min ≤ t && t ≤ range.max

/-- A time that the scan meets before it reaches the range. -/
def isAheadOf (range : TimeRange) (scan : Scan) (t : Timestamp) : Bool :=
  match scan with
  | .ascending => t < range.min
  | .descending => range.max < t

/-- A time that the scan meets only after it has left the range. -/
def isPassedBy (range : TimeRange) (scan : Scan) (t : Timestamp) : Bool :=
  match scan with
  | .ascending => range.max < t
  | .descending => t < range.min

def render (range : TimeRange) : String :=
  "[" ++ toString range.min ++ ", " ++ toString range.max ++ "]"

end TimeRange
end WindowFold
