import WindowFold.Proofs.Clipping
import WindowFold.Proofs.Steady
import WindowFold.Proofs.WindowQueries

/-! The cuts of a block around a range of time agree. The rows ahead of the range, those
within it and those past it follow each other, and every helper cuts where one of these
stretches ends. -/
namespace WindowFold

namespace TimeRange
variable {range : TimeRange} {scan : Scan}

theorem contains_min (real : range.min ≤ range.max) : range.contains range.min = true := by
  simp only [contains, Bool.and_eq_true, decide_eq_true_eq]
  exact ⟨Int.le_refl _, real⟩

end TimeRange

namespace Row
variable {range : TimeRange} {scan : Scan} {rows : List Row}

/-- A row ahead of a range of times is not past it. -/
theorem not_past_of_ahead (real : range.min ≤ range.max) {r : Row}
    (ahead : r.ahead range scan = true) : r.past range scan = false :=
  TimeRange.not_isPassedBy_of_isAheadOf (TimeRange.contains_min real) ahead

theorem filter_not_past (real : range.min ≤ range.max) (ordered : scan.Ordered rows) :
    rows.filter (!past range scan ·) =
      rows.filter (ahead range scan) ++ rows.filter (within range) := by
  have early : (rows.filter (!past range scan ·)).filter (ahead range scan) =
      rows.filter (ahead range scan) := by
    rw [List.filter_filter]
    apply List.filter_congr
    intro r _
    cases met : r.ahead range scan with
    | false => rfl
    | true => rw [not_past_of_ahead real met, Bool.not_false, Bool.and_self]
  have inside : (rows.filter (!past range scan ·)).filter (!ahead range scan ·) =
      rows.filter (within range) := by
    rw [List.filter_filter]
    apply List.filter_congr
    intro r _
    exact (within_eq range scan r).symm
  have part : scan.Ordered (rows.filter (!past range scan ·)) := ordered.sublist List.filter_sublist
  calc rows.filter (!past range scan ·)
      = (rows.filter (!past range scan ·)).takeWhile (ahead range scan) ++
          (rows.filter (!past range scan ·)).dropWhile (ahead range scan) :=
        List.takeWhile_append_dropWhile.symm
    _ = rows.filter (ahead range scan) ++ rows.filter (within range) := by
        rw [takeWhile_ahead part, dropWhile_ahead part, early, inside]

theorem dropWhile_not_past (ordered : scan.Ordered rows) :
    rows.dropWhile (!past range scan ·) = rows.filter (past range scan) := by
  have closed : ∀ a b : Row, scan.inOrder a.time b.time = true →
      (!past range scan b) = true → (!past range scan a) = true := by
    intro a b order unmet
    rw [Bool.not_eq_true'] at unmet ⊢
    by_contra met
    rw [Bool.not_eq_false] at met
    exact absurd (TimeRange.isPassedBy_of_inOrder order met) (by simpa [past] using unmet)
  rw [dropWhile_eq_filter closed ordered]
  simp only [Bool.not_not]

/-- Rows in scan order are the three stretches, one after the other. -/
theorem stretches_append (real : range.min ≤ range.max) (ordered : scan.Ordered rows) :
    rows.filter (ahead range scan) ++ rows.filter (within range) ++ rows.filter (past range scan) =
      rows := by
  rw [← filter_not_past real ordered, ← dropWhile_not_past ordered, ← takeWhile_not_past ordered]
  exact List.takeWhile_append_dropWhile

end Row

namespace Block
variable {b : Block} {range : TimeRange} {scan : Scan}

theorem rowsAhead_eq_length (range : TimeRange) (ordered : scan.Ordered b.rows) :
    rowsAhead b.times range scan = (b.rows.filter (Row.ahead range scan)).length := by
  rw [rowsAhead_eq, Row.takeWhile_ahead ordered]

theorem rowsUpTo_eq_length (real : range.min ≤ range.max) (ordered : scan.Ordered b.rows) :
    rowsUpTo b.times range scan = (b.rows.filter (Row.ahead range scan)).length +
      (b.rows.filter (Row.within range)).length := by
  rw [rowsUpTo_eq, Row.takeWhile_not_past ordered, Row.filter_not_past real ordered,
    List.length_append]

theorem rowsWithin_eq (real : range.min ≤ range.max) (ordered : scan.Ordered b.rows) :
    rowsWithin b.times range scan = ((b.rows.filter (Row.ahead range scan)).length,
      (b.rows.filter (Row.ahead range scan)).length +
        (b.rows.filter (Row.within range)).length) := by
  simp only [rowsWithin, rowsAhead_eq_length range ordered, rowsUpTo_eq_length real ordered,
    Prod.mk.injEq, true_and]
  omega

theorem rows_skipTo_eq (real : range.min ≤ range.max) (ordered : scan.Ordered b.rows) :
    (b.skipTo range scan).rows =
      b.rows.filter (Row.within range) ++ b.rows.filter (Row.past range scan) := by
  have split := Row.stretches_append real ordered
  rw [rows_skipTo, ← drop_length_takeWhile, Row.takeWhile_ahead ordered]
  conv_lhs => arg 2; rw [← split]
  rw [List.append_assoc, List.drop_left]

theorem rows_skipPast_eq (ordered : scan.Ordered b.rows) :
    (b.skipPast range scan).rows = b.rows.filter (Row.past range scan) := by
  rw [rows_skipPast, Row.dropWhile_not_past ordered]

/-- After the rows ahead of a range are skipped, the rows after those within it are the
block without all rows up to its end. -/
theorem sliceFrom_skipTo (real : range.min ≤ range.max) (ordered : scan.Ordered b.rows) :
    (b.skipTo range scan).sliceFrom (rowsWithin (b.skipTo range scan).times range scan).2 =
      b.skipPast range scan := by
  have rest : scan.Ordered (b.skipTo range scan).rows := by
    rw [rows_skipTo]
    exact ordered.sublist (List.dropWhile_sublist _)
  have none : ((b.skipTo range scan).rows.filter (Row.ahead range scan)) = [] := by
    rw [rows_skipTo_eq real ordered, List.filter_append, List.filter_filter, List.filter_filter,
      List.append_eq_nil_iff]
    constructor
    · apply List.filter_eq_nil_iff.2
      intro r _ both
      rw [Bool.and_eq_true] at both
      exact absurd (Row.within_of_ahead both.1) (by simp [both.2])
    · apply List.filter_eq_nil_iff.2
      intro r _ both
      rw [Bool.and_eq_true] at both
      exact absurd (Row.not_past_of_ahead real both.1) (by simp [both.2])
  have inside : (b.skipTo range scan).rows.filter (Row.within range) =
      b.rows.filter (Row.within range) := by
    rw [rows_skipTo, Row.filter_within_dropWhile_ahead]
  rw [rowsWithin_eq real rest, none, inside, List.length_nil, Nat.zero_add, skipTo,
    sliceFrom_sliceFrom, rowsAhead_eq_length range ordered, skipPast,
    rowsUpTo_eq_length real ordered]

/-- Rows are accepted just if all of them are in scan order. Around any range the block
then falls into the rows ahead of it, those within it and those past it; every helper
cuts between two of these stretches, and where an aggregator that was fed the rows from
the range on says that the later ones begin is where the range ends. -/
theorem cuts_agree (b : Block) (scan : Scan) :
    (b.checkScanOrder scan = .ok () ↔
      b.rows.Pairwise fun r s => scan.inOrder r.time s.time = true) ∧
    ∀ range : TimeRange, range.min ≤ range.max → b.checkScanOrder scan = .ok () →
      let ahead := b.rows.filter (Row.ahead range scan)
      let within := b.rows.filter (Row.within range)
      let past := b.rows.filter (Row.past range scan)
      b.rows = ahead ++ within ++ past ∧
      rowsWithin b.times range scan = (ahead.length, ahead.length + within.length) ∧
      b.skipTo range scan = b.sliceFrom ahead.length ∧
      (b.skipTo range scan).rows = within ++ past ∧
      b.skipPast range scan = b.sliceFrom (ahead.length + within.length) ∧
      (b.skipPast range scan).rows = past ∧
      ∀ (a after : Aggregator) (stop : Nat), a.range = range → a.scan = scan →
        a.feedBlock (b.skipTo range scan) = (.ok stop, after) →
        (b.skipTo range scan).sliceFrom stop = b.skipPast range scan := by
  refine ⟨checkScanOrder_eq_ok_iff b scan, ?_⟩
  intro range real accepted
  have ordered := (checkScanOrder_eq_ok_iff b scan).1 accepted
  refine ⟨(Row.stretches_append real ordered).symm, rowsWithin_eq real ordered, ?_,
    rows_skipTo_eq real ordered, ?_, rows_skipPast_eq ordered, ?_⟩
  · rw [skipTo, rowsAhead_eq_length range ordered]
  · rw [skipPast, rowsUpTo_eq_length real ordered]
  · rintro a after stop rfl rfl fed
    rw [Aggregator.stop_of_feedBlock fed]
    exact sliceFrom_skipTo real ordered

/-- Equal times at both ends of the range, and rows on both sides of it. -/
def sampleFalling : Block :=
  Query.sampleBlock [12, 9, 9, 7, 5, 5, 3] [some 1, none, some 2, some 3, some 4, none, some 6] rfl

def sampleCount : Aggregator where
  name := "count(value)"
  kind := .count
  step := .single
  inputs := [1]
  accumulator := .count 0
  scan := .descending
  range := ⟨5, 9⟩

/-- The range takes the five rows after the first; then one row is left. -/
theorem cuts_agree_falling :
    sampleFalling.checkScanOrder .descending = .ok () ∧
      rowsWithin sampleFalling.times ⟨5, 9⟩ .descending = (1, 6) ∧
      (sampleCount.feedBlock (sampleFalling.skipTo ⟨5, 9⟩ .descending)).1 = .ok 5 ∧
      (sampleFalling.skipTo ⟨5, 9⟩ .descending).sliceFrom 5 =
        sampleFalling.skipPast ⟨5, 9⟩ .descending ∧
      (sampleFalling.skipPast ⟨5, 9⟩ .descending).times = [3] := by
  have accepted : sampleFalling.checkScanOrder .descending = .ok () := by decide
  have fed : sampleCount.feedBlock (sampleFalling.skipTo ⟨5, 9⟩ .descending) = (.ok 5, _) := rfl
  obtain ⟨_, places, _, _, _, _, cut⟩ :=
    (cuts_agree sampleFalling .descending).2 ⟨5, 9⟩ (by decide) accepted
  exact ⟨accepted, places.trans (by decide), by rw [fed], cut sampleCount _ 5 rfl rfl fed,
    by decide⟩

end Block
end WindowFold
