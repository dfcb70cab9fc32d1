import WindowFold.Block

/-! Cutting a block around a time range. A scan meets first the rows ahead of
the range, then those within it, then those past it; the cuts are the lengths
of these stretches, for rows in scan order. -/
namespace WindowFold

namespace Series

def extract (s : Series) (start count : Nat) : Series :=
  { s with column := s.column.extract start count }

end Series

namespace Block

/-- The rows from `start` on, `count` of them at most. -/
def extract (b : Block) (start count : Nat) : Block where
  timeName := b.timeName
  timeNullable := b.timeNullable
  times := (b.times.drop start).take count
  series := b.series.map (·.extract start count)
  aligned := by
    intro s member
    obtain ⟨column, found, rfl⟩ := List.mem_map.1 member
    have same := b.aligned column found
    simp only [Column.length] at same
    simp [Series.extract, Column.extract, Column.length, same]

/-- Exactly the rows asked for. -/
def slice (b : Block) (start count : Nat) : Except Failure Block :=
  if start + count ≤ b.rowCount then .ok (b.extract start count) else .error .outOfBounds

/-- The rows from `start` to the end; none if there are not as many. -/
def sliceFrom (b : Block) (start : Nat) : Block := b.extract start (b.rowCount - start)

/-- How many rows come before the range, and how many before its end. -/
def rowsAhead (times : List Timestamp) (range : TimeRange) (scan : Scan) : Nat :=
  (times.takeWhile (range.isAheadOf scan)).length

def rowsUpTo (times : List Timestamp) (range : TimeRange) (scan : Scan) : Nat :=
  (times.takeWhile fun t => !range.isPassedBy scan t).length

/-- The rows within the range, as the first one and the one after the last. -/
def rowsWithin (times : List Timestamp) (range : TimeRange) (scan : Scan) : Nat × Nat :=
  let start := rowsAhead times range scan
  (start, max start (rowsUpTo times range scan))

/-- Without the rows ahead of the range. -/
def skipTo (b : Block) (range : TimeRange) (scan : Scan) : Block :=
  b.sliceFrom (rowsAhead b.times range scan)

/-- The rows past the range. -/
def skipPast (b : Block) (range : TimeRange) (scan : Scan) : Block :=
  b.sliceFrom (rowsUpTo b.times range scan)

end Block
end WindowFold
