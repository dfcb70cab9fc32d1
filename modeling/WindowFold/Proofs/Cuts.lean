import WindowFold.Proofs.Lists
import WindowFold.Proofs.Rows

/-! Rows in scan order fall into three stretches around a range: those ahead of
it, those within it and those past it. The cuts of a block lie between them. -/
namespace WindowFold

namespace Scan

/-- No row comes before one that the scan should have met earlier. -/
def Ordered (scan : Scan) (rows : List Row) : Prop :=
  rows.Pairwise fun r s => scan.inOrder r.time s.time = true

instance (scan : Scan) (rows : List Row) : Decidable (scan.Ordered rows) :=
  inferInstanceAs (Decidable (rows.Pairwise fun r s => scan.inOrder r.time s.time = true))

theorem inOrder_trans {scan : Scan} {t u v : Timestamp} (first : scan.inOrder t u = true)
    (second : scan.inOrder u v = true) : scan.inOrder t v = true := by
  cases scan <;> simp only [inOrder, decide_eq_true_eq, Timestamp] at first second ⊢ <;> omega

end Scan

namespace TimeRange
variable {range : TimeRange} {scan : Scan}

theorem isAheadOf_of_inOrder {t u : Timestamp} (order : scan.inOrder t u = true)
    (ahead : range.isAheadOf scan u = true) : range.isAheadOf scan t = true := by
  cases scan <;>
    simp only [Scan.inOrder, isAheadOf, decide_eq_true_eq, Timestamp] at order ahead ⊢ <;>
    omega

theorem isPassedBy_of_inOrder {t u : Timestamp} (order : scan.inOrder t u = true)
    (passed : range.isPassedBy scan t = true) : range.isPassedBy scan u = true := by
  cases scan <;>
    simp only [Scan.inOrder, isPassedBy, decide_eq_true_eq, Timestamp] at order passed ⊢ <;>
    omega

theorem contains_eq (range : TimeRange) (scan : Scan) (t : Timestamp) :
    range.contains t = (!range.isAheadOf scan t && !range.isPassedBy scan t) := by
  cases scan <;> simp only [contains, isAheadOf, isPassedBy] <;> grind

theorem not_isPassedBy_of_isAheadOf {t u : Timestamp} (within : range.contains t = true)
    (ahead : range.isAheadOf scan u = true) : range.isPassedBy scan u = false := by
  cases scan <;> simp only [contains, isAheadOf, isPassedBy, Bool.and_eq_true, decide_eq_true_eq,
    decide_eq_false_iff_not, Timestamp] at within ahead ⊢ <;> omega

end TimeRange

namespace Row

/-- The row lies ahead of a range, within it, or past it. -/
def ahead (range : TimeRange) (scan : Scan) (r : Row) : Bool := range.isAheadOf scan r.time
def within (range : TimeRange) (r : Row) : Bool := range.contains r.time
def past (range : TimeRange) (scan : Scan) (r : Row) : Bool := range.isPassedBy scan r.time

variable {range : TimeRange} {scan : Scan} {rows : List Row}

theorem within_eq (range : TimeRange) (scan : Scan) (r : Row) :
    r.within range = (!r.ahead range scan && !r.past range scan) := range.contains_eq scan r.time

theorem takeWhile_ahead (ordered : scan.Ordered rows) :
    rows.takeWhile (ahead range scan) = rows.filter (ahead range scan) :=
  takeWhile_eq_filter (fun _ _ order => TimeRange.isAheadOf_of_inOrder order) ordered

theorem dropWhile_ahead (ordered : scan.Ordered rows) :
    rows.dropWhile (ahead range scan) = rows.filter (!ahead range scan ·) :=
  dropWhile_eq_filter (fun _ _ order => TimeRange.isAheadOf_of_inOrder order) ordered

private theorem not_past_closed (a b : Row) (order : scan.inOrder a.time b.time = true)
    (h : (!past range scan b) = true) : (!past range scan a) = true := by
  rw [Bool.not_eq_true'] at h ⊢
  by_contra passed
  rw [Bool.not_eq_false] at passed
  rw [past, TimeRange.isPassedBy_of_inOrder order passed] at h
  contradiction

theorem takeWhile_not_past (ordered : scan.Ordered rows) :
    rows.takeWhile (!past range scan ·) = rows.filter (!past range scan ·) :=
  takeWhile_eq_filter not_past_closed ordered

/-- The rows within a range are those that are met after the ones ahead of it
and before the ones past it. -/
theorem takeWhile_dropWhile (ordered : scan.Ordered rows) :
    (rows.dropWhile (ahead range scan)).takeWhile (!past range scan ·) =
      rows.filter (within range) := by
  rw [takeWhile_not_past (List.Pairwise.sublist (List.dropWhile_sublist _) ordered),
    dropWhile_ahead ordered, List.filter_filter]
  congr 1
  funext r
  rw [within_eq range scan, Bool.and_comm]

/-- The rows up to the end of the range: those ahead of it and those within. -/
def upTo (range : TimeRange) (scan : Scan) (rows : List Row) : List Row :=
  rows.takeWhile (ahead range scan) ++ rows.filter (within range)

/-- The rows after the end of the range. -/
def beyond (range : TimeRange) (scan : Scan) (rows : List Row) : List Row :=
  (rows.dropWhile (ahead range scan)).dropWhile (!past range scan ·)

theorem upTo_append_beyond (ordered : scan.Ordered rows) :
    upTo range scan rows ++ beyond range scan rows = rows := by
  rw [upTo, beyond, List.append_assoc, ← takeWhile_dropWhile ordered,
    List.takeWhile_append_dropWhile, List.takeWhile_append_dropWhile]

theorem within_of_ahead {r : Row} (h : r.ahead range scan = true) : r.within range = false := by
  rw [within_eq range scan, h]
  rfl

theorem within_of_past {r : Row} (h : r.past range scan = true) : r.within range = false := by
  rw [within_eq range scan, h, Bool.not_true, Bool.and_false]

theorem filter_within_takeWhile_ahead :
    (rows.takeWhile (ahead range scan)).filter (within range) = [] :=
  List.filter_eq_nil_iff.2 fun r member => by
    simp [within_of_ahead (List.mem_takeWhile_imp member)]

theorem filter_within_upTo (range : TimeRange) (scan : Scan) (rows : List Row) :
    (upTo range scan rows).filter (within range) = rows.filter (within range) := by
  rw [upTo, List.filter_append, filter_within_takeWhile_ahead, List.nil_append, List.filter_filter]
  simp only [Bool.and_self]

theorem of_mem_upTo {r : Row} (member : r ∈ upTo range scan rows) :
    r.ahead range scan = true ∨ r.within range = true := by
  rcases List.mem_append.1 member with ahead | within
  · exact .inl (List.mem_takeWhile_imp ahead)
  · exact .inr (List.mem_filter.1 within).2

/-- The first row after the end of the range is past it, and so are all others. -/
theorem head?_beyond {r : Row} (first : (beyond range scan rows).head? = some r) :
    r.past range scan = true := by
  have := List.head?_dropWhile_not (!past range scan ·) (rows.dropWhile (ahead range scan))
  rw [beyond] at first
  rw [first] at this
  simpa using this

theorem past_of_head {first : Row} (ordered : scan.Ordered rows) (head : rows.head? = some first)
    (passed : first.past range scan = true) : ∀ r ∈ rows, r.past range scan = true := by
  cases rows with
  | nil => contradiction
  | cons r rest =>
    obtain rfl := Option.some.inj head
    intro s member
    rcases List.mem_cons.1 member with rfl | later
    · exact passed
    · exact TimeRange.isPassedBy_of_inOrder (List.rel_of_pairwise_cons ordered later) passed

theorem filter_within_dropWhile_ahead :
    (rows.dropWhile (ahead range scan)).filter (within range) = rows.filter (within range) := by
  conv_rhs => rw [← List.takeWhile_append_dropWhile (p := ahead range scan) (l := rows)]
  rw [List.filter_append, filter_within_takeWhile_ahead, List.nil_append]

end Row

namespace Block
variable {scan : Scan}

theorem takeWhile_times (b : Block) (p : Timestamp → Bool) :
    (b.times.takeWhile p).length = (b.rows.takeWhile (p ·.time)).length := by
  rw [← map_time_rows, List.takeWhile_map, List.length_map]
  rfl

theorem rowsAhead_eq (b : Block) (range : TimeRange) (scan : Scan) :
    rowsAhead b.times range scan = (b.rows.takeWhile (Row.ahead range scan)).length :=
  takeWhile_times b _

theorem rowsUpTo_eq (b : Block) (range : TimeRange) (scan : Scan) :
    rowsUpTo b.times range scan = (b.rows.takeWhile (!Row.past range scan ·)).length :=
  takeWhile_times b _

theorem schema_skipTo (b : Block) (range : TimeRange) (scan : Scan) :
    (b.skipTo range scan).schema = b.schema := by
  rw [skipTo, schema_sliceFrom]

theorem rows_skipTo (b : Block) (range : TimeRange) (scan : Scan) :
    (b.skipTo range scan).rows = b.rows.dropWhile (Row.ahead range scan) := by
  rw [skipTo, rows_sliceFrom, rowsAhead_eq, drop_length_takeWhile]

theorem rows_skipPast (b : Block) (range : TimeRange) (scan : Scan) :
    (b.skipPast range scan).rows = b.rows.dropWhile (!Row.past range scan ·) := by
  rw [skipPast, rows_sliceFrom, rowsUpTo_eq, drop_length_takeWhile]

/-- Rows ahead of a range count as not past it, unless the range is empty of
rows; either way the cuts lie as far apart as there are rows within. -/
theorem length_within {range : TimeRange} {rows : List Row} (ordered : scan.Ordered rows) :
    max (rows.takeWhile (Row.ahead range scan)).length
        (rows.takeWhile (!Row.past range scan ·)).length
      - (rows.takeWhile (Row.ahead range scan)).length =
        (rows.filter (Row.within range)).length := by
  rw [Row.takeWhile_ahead ordered, Row.takeWhile_not_past ordered]
  have split : (rows.filter (!Row.past range scan ·)).length =
      ((rows.filter (Row.ahead range scan)).filter (!Row.past range scan ·)).length +
        (rows.filter (Row.within range)).length := by
    have := List.countP_eq_countP_filter_add rows (!Row.past range scan ·) (Row.ahead range scan)
    rw [List.countP_eq_length_filter, List.countP_eq_length_filter, List.countP_eq_length_filter,
      List.filter_filter (l := rows) (p := (!Row.past range scan ·)) (q := fun r => !_)] at this
    rw [this]
    congr 3
    funext r
    rw [Row.within_eq range scan, Bool.and_comm]
  by_cases some : ∃ r ∈ rows, Row.within range r = true
  · obtain ⟨r, _, within⟩ := some
    have all : (rows.filter (Row.ahead range scan)).filter (!Row.past range scan ·) =
        rows.filter (Row.ahead range scan) := by
      refine List.filter_eq_self.2 fun s member => ?_
      have ahead := (List.mem_filter.1 member).2
      simpa [Row.past] using TimeRange.not_isPassedBy_of_isAheadOf within ahead
    rw [all] at split
    omega
  · have none : rows.filter (Row.within range) = [] :=
      List.filter_eq_nil_iff.2 fun r member within => some ⟨r, member, within⟩
    have fewer := List.length_filter_le (!Row.past range scan ·)
      (rows.filter (Row.ahead range scan))
    rw [none, List.length_nil] at split ⊢
    omega

theorem length_rowsWithin (b : Block) (range : TimeRange) (ordered : scan.Ordered b.rows) :
    (rowsWithin b.times range scan).2 - (rowsWithin b.times range scan).1 =
      (b.rows.filter (Row.within range)).length := by
  simp only [rowsWithin]
  rw [rowsAhead_eq, rowsUpTo_eq, length_within ordered]

theorem rows_extract_rowsWithin (b : Block) (range : TimeRange) (ordered : scan.Ordered b.rows) :
    (b.extract (rowsWithin b.times range scan).1
      ((rowsWithin b.times range scan).2 - (rowsWithin b.times range scan).1)).rows =
        b.rows.filter (Row.within range) := by
  rw [rows_extract, length_rowsWithin b range ordered, rowsWithin, rowsAhead_eq,
    drop_length_takeWhile, ← Row.takeWhile_dropWhile ordered, take_length_takeWhile]

/-- Without the rows ahead of the range, the rows after those within it are past it. -/
theorem rows_sliceFrom_skipTo (b : Block) (range : TimeRange) (scan : Scan) :
    ((b.skipTo range scan).sliceFrom
      (rowsWithin (b.skipTo range scan).times range scan).2).rows =
        Row.beyond range scan b.rows := by
  have none : ((b.rows.dropWhile (Row.ahead range scan)).takeWhile (Row.ahead range scan)).length =
      0 := by
    cases rows : b.rows.dropWhile (Row.ahead range scan) with
    | nil => rfl
    | cons r rest =>
      have first := List.head?_dropWhile_not (Row.ahead range scan) b.rows
      rw [rows] at first
      rw [List.takeWhile_cons_of_neg (by simpa using first)]
      rfl
  rw [rows_sliceFrom, rowsWithin, rowsAhead_eq, rowsUpTo_eq, rows_skipTo, none, Nat.zero_max,
    drop_length_takeWhile, Row.beyond]

theorem checkScanOrder_eq_ok_iff (b : Block) (scan : Scan) :
    b.checkScanOrder scan = .ok () ↔ scan.Ordered b.rows := by
  have chain : ∀ times : List Timestamp, firstDisorder? scan times = none ↔
      times.Pairwise fun t u => scan.inOrder t u = true := by
    intro times
    induction times with
    | nil => simp [firstDisorder?]
    | cons t rest ih =>
      cases rest with
      | nil => simp [firstDisorder?]
      | cons u rest =>
        rw [firstDisorder?]
        by_cases order : scan.inOrder t u = true
        · rw [if_pos order, Option.map_eq_none_iff, ih]
          constructor
          · intro later
            refine List.pairwise_cons.2 ⟨?_, later⟩
            intro v member
            rcases List.mem_cons.1 member with rfl | member
            · exact order
            · exact Scan.inOrder_trans order (List.rel_of_pairwise_cons later member)
          · exact List.Pairwise.of_cons
        · rw [if_neg order]
          constructor
          · intro impossible
            contradiction
          · intro all
            exact absurd (List.rel_of_pairwise_cons all List.mem_cons_self) order
  have times : scan.Ordered b.rows ↔ b.times.Pairwise fun t u => scan.inOrder t u = true := by
    rw [← map_time_rows, List.pairwise_map]
    rfl
  rw [times, ← chain, checkScanOrder]
  cases firstDisorder? scan b.times <;> simp

end Block
end WindowFold
