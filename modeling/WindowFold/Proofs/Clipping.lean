import WindowFold.Proofs.Rounds
import WindowFold.Proofs.Windows

/-! Rounds with and without the window that the end of a query cuts short. In
ascending scans that window comes last and can be left out. In descending ones it
comes first; its rows stand in the way of the next window only where a block has
no other rows. -/
namespace WindowFold

namespace WindowSeries

/-- Without the window that is cut short there is one window less. -/
theorem fixedCount_split (start stop : Timestamp) (interval step : Int) :
    fixedCount start stop interval step true = fixedCount start stop interval step false ∨
      fixedCount start stop interval step true = fixedCount start stop interval step false + 1 := by
  simp only [fixedCount, Bool.not_true, Bool.and_false, Bool.false_eq_true, if_false,
    Bool.not_false, Bool.and_true]
  split <;> omega

theorem toList_fixed_split (start stop : Timestamp) (interval step : Int) (leftClosed : Bool) :
    ∃ clipped, (fixed start stop interval step leftClosed
        (fixedCount start stop interval step true)).toList =
      (fixed start stop interval step leftClosed
        (fixedCount start stop interval step false)).toList ++ clipped ∧ clipped.length ≤ 1 := by
  rcases fixedCount_split start stop interval step with same | more
  · exact ⟨[], by rw [same, List.append_nil], Nat.zero_le _⟩
  · let fewer := fixedCount start stop interval step false
    refine ⟨[(fixed start stop interval step leftClosed fewer).window fewer], ?_, Nat.le_refl _⟩
    rw [toList, count, more, List.range_succ, List.map_append]
    rfl

/-- The calendar windows are the same up to the one that is cut short. -/
theorem monthBoundsFrom_split {start stop : Timestamp} {moment : Calendar.Moment}
    {interval step fuel offset : Nat} {found entire part : List (Timestamp × Timestamp)}
    (kept : monthBoundsFrom start stop moment interval step true fuel offset found = .ok entire)
    (dropped : monthBoundsFrom start stop moment interval step false fuel offset found = .ok part) :
    ∃ clipped, entire = part ++ clipped ∧ clipped.length ≤ 1 := by
  induction fuel generalizing offset found with
  | zero =>
    cases kept
    cases dropped
    exact ⟨[], (List.append_nil _).symm, Nat.zero_le _⟩
  | succ fuel ih =>
    rw [monthBoundsFrom] at kept dropped
    split at kept
    · contradiction
    next first from_ =>
    rw [from_] at dropped
    simp only at dropped
    split at kept
    next past =>
      rw [if_pos past] at dropped
      cases kept
      cases dropped
      exact ⟨[], (List.append_nil _).symm, Nat.zero_le _⟩
    next open_ =>
    rw [if_neg open_] at dropped
    split at kept
    · contradiction
    next last to_ =>
    rw [to_] at dropped
    simp only at dropped
    split at kept
    next short =>
      rw [if_pos short] at dropped
      cases kept
      cases dropped
      exact ⟨[(first, stop)], by simp, Nat.le_refl _⟩
    next long =>
      rw [if_neg long] at dropped
      exact ih kept dropped

theorem monthBounds_split {start stop : Timestamp} {interval step : Nat}
    {entire part : List (Timestamp × Timestamp)}
    (kept : monthBounds start stop interval step true = .ok entire)
    (dropped : monthBounds start stop interval step false = .ok part) :
    ∃ clipped, entire = part ++ clipped ∧ clipped.length ≤ 1 := by
  rw [monthBounds] at kept dropped
  split at kept
  next covered =>
    rw [if_pos covered] at dropped
    exact monthBoundsFrom_split kept dropped
  · contradiction

/-- At most one window is cut short, and it is the last one in time. -/
theorem toList_split {grouping : Option Grouping} {entire part : WindowSeries}
    (kept : ofGrouping? grouping true = .ok entire)
    (dropped : ofGrouping? grouping false = .ok part) :
    ∃ clipped, entire.toList = part.toList ++ clipped ∧ clipped.length ≤ 1 := by
  cases grouping with
  | none =>
    cases kept
    cases dropped
    exact ⟨[], (List.append_nil _).symm, Nat.zero_le _⟩
  | some g =>
  change ofGrouping g true = _ at kept
  change ofGrouping g false = _ at dropped
  rw [ofGrouping] at kept dropped
  split at kept
  · contradiction
  next valid =>
  rw [valid] at dropped
  simp only at dropped
  split at kept
  next interval step length distance =>
    rw [length, distance] at dropped
    cases kept
    cases dropped
    exact toList_fixed_split g.start g.stop interval step g.leftClosed
  next interval step length distance =>
    rw [length, distance] at dropped
    obtain ⟨full, bounds, rfl⟩ := map_eq_ok.1 kept
    obtain ⟨less, fewer, rfl⟩ := map_eq_ok.1 dropped
    obtain ⟨clipped, same, one⟩ := monthBounds_split bounds fewer
    refine ⟨clipped.map fun b => .between g.leftClosed b.1 b.2, ?_, by simpa using one⟩
    rw [toList_listed, toList_listed, same, List.map_append]
  · contradiction

theorem count_lt {entire part : WindowSeries} {clipped : List Window} {w : Window}
    (split : entire.toList = part.toList ++ clipped) (cut : w ∈ clipped) :
    part.count < entire.count := by
  have lengths := congrArg List.length split
  have some := List.length_pos_of_mem cut
  simp only [toList, List.length_append, List.length_map, List.length_range] at lengths
  omega

end WindowSeries

namespace Block
variable {b : Block} {scan : Scan} {clipped range : TimeRange}

theorem times_sliceFrom (b : Block) (start : Nat) :
    (b.sliceFrom start).times = b.times.drop start := by
  rw [← map_time_rows, rows_sliceFrom, List.map_drop, map_time_rows]

theorem sliceFrom_sliceFrom (b : Block) (m n : Nat) :
    (b.sliceFrom m).sliceFrom n = b.sliceFrom (m + n) := by
  have cut : ∀ {α : Type} (l : List α) (count : Nat),
      (((l.drop m).take count).drop n).take (count - n) = (l.drop (m + n)).take (count - n) := by
    intro α l count
    rw [List.drop_take, List.take_take, Nat.min_self, List.drop_drop]
  have rows : (b.sliceFrom m).rowCount = b.rowCount - m := by
    rw [rowCount_eq, rows_sliceFrom, List.length_drop, ← rowCount_eq]
  rw [sliceFrom, rows, sliceFrom, sliceFrom, Nat.sub_add_eq]
  simp only [extract, cut, List.map_map, mk.injEq, true_and]
  apply List.map_congr_left
  intro s _
  simp only [Function.comp_apply, Series.extract, Column.extract, cut]

/-- Rows up to an earlier range are not within a later one. -/
theorem filter_within_skipPast (precedes : clipped.Precedes scan range) :
    (b.skipPast clipped scan).rows.filter (Row.within range) =
      b.rows.filter (Row.within range) := by
  have none : (b.rows.takeWhile (!Row.past clipped scan ·)).filter (Row.within range) = [] := by
    apply List.filter_eq_nil_iff.2
    intro r member
    have met : r.past clipped scan = false := by simpa using List.mem_takeWhile_imp member
    have ahead : r.ahead range scan = true := precedes.isAheadOf met
    simp [Row.within_of_ahead ahead]
  rw [rows_skipPast]
  conv_rhs => rw [← List.takeWhile_append_dropWhile (p := (!Row.past clipped scan ·)) (l := b.rows)]
  rw [List.filter_append, none, List.nil_append]

/-- A row past the range is left. -/
theorem isEmpty_skipPast {r : Row} (member : r ∈ b.rows) (past : r.past range scan = true) :
    (b.skipPast range scan).isEmpty = false := by
  rw [← Bool.not_eq_true, isEmpty_iff, rows_skipPast, List.dropWhile_eq_nil_iff]
  intro none
  have := none r member
  rw [past] at this
  contradiction

theorem skipPast_skipPast (precedes : clipped.Precedes scan range)
    {t : Timestamp} (real : range.contains t = true) :
    (b.skipPast clipped scan).skipPast range scan = b.skipPast range scan := by
  have both : rowsUpTo b.times range scan =
      rowsUpTo b.times clipped scan + rowsUpTo (b.skipPast clipped scan).times range scan := by
    have ahead : ∀ u ∈ b.times.takeWhile (!clipped.isPassedBy scan ·),
        (!range.isPassedBy scan u) = true := by
      intro u member
      have met : clipped.isPassedBy scan u = false := by simpa using List.mem_takeWhile_imp member
      rw [TimeRange.not_isPassedBy_of_isAheadOf real (precedes.isAheadOf met)]
      rfl
    rw [skipPast, times_sliceFrom, rowsUpTo, rowsUpTo, drop_length_takeWhile]
    conv_lhs =>
      rw [← List.takeWhile_append_dropWhile (p := (!clipped.isPassedBy scan ·)) (l := b.times)]
    rw [List.takeWhile_append_of_pos ahead, List.length_append, rowsUpTo]
  rw [skipPast, skipPast, sliceFrom_sliceFrom, skipPast, both]
  rfl

end Block

namespace Queue
variable {q : Queue} {scan : Scan} {clipped range : TimeRange}

/-- The next block has rows past a range. -/
def Outlasts (q : Queue) (range : TimeRange) (scan : Scan) : Prop :=
  ∃ block, q.fill.held = some block ∧ (block.skipPast range scan).isEmpty = false

theorem Outlasts.held_skipPast (outlasts : q.Outlasts clipped scan) :
    (q.fill.skipPast clipped scan).held = q.fill.held.map (·.skipPast clipped scan) := by
  obtain ⟨block, held, some⟩ := outlasts
  rw [skipPast, held, Option.map_some, Option.filter_some, some]
  rfl

theorem Outlasts.fill_skipPast (outlasts : q.Outlasts clipped scan) :
    (q.fill.skipPast clipped scan).fill = q.fill.skipPast clipped scan := by
  have same := outlasts.held_skipPast
  obtain ⟨block, held, _⟩ := outlasts
  rw [held, Option.map_some] at same
  rw [fill, same]

/-- Of the ranges that a block is cut by the last one counts. -/
theorem Outlasts.skipPast_skipPast (outlasts : q.Outlasts clipped scan)
    (precedes : clipped.Precedes scan range) {t : Timestamp} (real : range.contains t = true) :
    (q.fill.skipPast clipped scan).skipPast range scan = q.fill.skipPast range scan := by
  have rows : (q.fill.skipPast clipped scan).held.map (·.skipPast range scan) =
      q.fill.held.map (·.skipPast range scan) := by
    rw [outlasts.held_skipPast, Option.map_map]
    exact Option.map_congr fun block _ => block.skipPast_skipPast precedes real
  exact congrArg (fun held => Queue.mk (held.filter (!·.isEmpty)) q.fill.coming) rows

end Queue

namespace MergeStage
variable {types : List ScalarType} {scan : Scan} {fresh : List Aggregator}
  {windows later : List Window} {window : Window} {queues : List Queue} {rows : List Row}

theorem of_rounds_cons (made : rounds fresh scan (window :: later) queues = .ok rows) :
    ∃ aggregators rest, feedAll ((queues.map Queue.fill).filterMap (·.held))
        (enterAll fresh window.range) = (.ok (), aggregators) ∧
      rounds fresh scan later ((queues.map Queue.fill).map (·.skipPast window.range scan)) =
        .ok rest ∧ rows = ⟨window.outputTime, outputRow aggregators⟩ :: rest := by
  rcases fed : feedAll ((queues.map Queue.fill).filterMap (·.held))
    (enterAll fresh window.range) with ⟨e | _, aggregators⟩
  · rw [rounds_cons_error fed] at made
    contradiction
  · rw [rounds_cons_ok fed] at made
    obtain ⟨rest, others, rfl⟩ := map_eq_ok.1 made
    exact ⟨aggregators, rest, fed, others, rfl⟩

theorem times_of_rounds (made : rounds fresh scan windows queues = .ok rows) :
    rows.map (·.time) = windows.map (·.outputTime) := by
  induction windows generalizing queues rows with
  | nil =>
    cases made
    rfl
  | cons window coming ih =>
    obtain ⟨aggregators, rest, _, others, rfl⟩ := of_rounds_cons made
    rw [List.map_cons, List.map_cons, ih others]

/-- Later windows make no difference to earlier ones. -/
theorem of_rounds_append (made : rounds fresh scan (windows ++ later) queues = .ok rows) :
    ∃ kept cut, rounds fresh scan windows queues = .ok kept ∧ rows = kept ++ cut ∧
      cut.map (·.time) = later.map (·.outputTime) := by
  induction windows generalizing queues rows with
  | nil => exact ⟨[], rows, rfl, rfl, times_of_rounds made⟩
  | cons window coming ih =>
    obtain ⟨aggregators, rest, fed, others, rfl⟩ := of_rounds_cons made
    obtain ⟨kept, cut, first, rfl, last⟩ := ih others
    exact ⟨_, cut, by rw [rounds_cons_ok fed, first]; rfl, rfl, last⟩

/-- Where every child still has rows past a window, the window can be left out. -/
theorem rounds_skipPast (gather : ∀ a ∈ fresh, a.Gathers types scan)
    (fit : ∀ q ∈ queues, q.Fit types scan) (turn : InTurn scan (window :: windows))
    (wide : ∀ q ∈ queues, q.Outlasts window.range scan) :
    rounds fresh scan windows ((queues.map Queue.fill).map (·.skipPast window.range scan)) =
      rounds fresh scan windows queues := by
  cases windows with
  | nil => rfl
  | cons next coming =>
  have precedes : window.range.Precedes scan next.range :=
    List.rel_of_pairwise_cons turn.chain List.mem_cons_self
  have real := turn.real next (List.mem_cons_of_mem _ List.mem_cons_self)
  have full : ((queues.map Queue.fill).map (·.skipPast window.range scan)).map Queue.fill =
      (queues.map Queue.fill).map (·.skipPast window.range scan) := by
    rw [List.map_map, List.map_map, List.map_map]
    exact List.map_congr_left fun q member => (wide q member).fill_skipPast
  have left : ((queues.map Queue.fill).map (·.skipPast window.range scan)).map
        (·.skipPast next.range scan) =
      (queues.map Queue.fill).map (·.skipPast next.range scan) := by
    rw [List.map_map, List.map_map, List.map_map]
    exact List.map_congr_left fun q member => (wide q member).skipPast_skipPast precedes real
  have held : ((queues.map Queue.fill).map (·.skipPast window.range scan)).filterMap (·.held) =
      ((queues.map Queue.fill).filterMap (·.held)).map (·.skipPast window.range scan) := by
    rw [List.map_map, List.filterMap_map, List.filterMap_map, List.map_filterMap]
    exact List.filterMap_congr fun q member => (wide q member).held_skipPast
  have fits : ∀ q ∈ queues.map Queue.fill, q.Fit types scan :=
    List.forall_mem_map.2 fun q member => (fit q member).fill
  have skips : ∀ q ∈ (queues.map Queue.fill).map (·.skipPast window.range scan),
      q.Fit types scan :=
    List.forall_mem_map.2 fun q member => (fits q member).skipPast window.range
  have fed : feedAll (((queues.map Queue.fill).map (·.skipPast window.range scan)).filterMap
        (·.held)) (enterAll fresh next.range) =
      feedAll ((queues.map Queue.fill).filterMap (·.held)) (enterAll fresh next.range) := by
    apply feedAll_congr
    intro a member
    obtain ⟨b, listed, rfl⟩ := List.mem_map.1 member
    apply ((gather b listed).enter next.range).feedBlocks_congr (Queue.fit_held skips)
      (Queue.fit_held fits)
    rw [held]
    exact List.forall₂_map_left_iff.2 (List.forall₂_same.2 fun block _ =>
      block.filter_within_skipPast precedes)
  rw [rounds, rounds, full, fed, left]

end MergeStage

/-- What is earlier in time and what is later, as a scan meets them. -/
def Scan.arrange {α : Type} (scan : Scan) (earlier later : List α) : List α :=
  match scan with
  | .ascending => earlier ++ later
  | .descending => later ++ earlier

namespace MergeStage
variable {types : List ScalarType} {scan : Scan} {fresh : List Aggregator} {queues : List Queue}
  {rows : List Row}

/-- The rows of all windows but the one that is cut short. -/
theorem rounds_unclipped {entire part : WindowSeries} {clipped : List Window}
    (split : entire.toList = part.toList ++ clipped) (one : clipped.length ≤ 1)
    (gather : ∀ a ∈ fresh, a.Gathers types scan) (fit : ∀ q ∈ queues, q.Fit types scan)
    (turn : InTurn scan (entire.scanned scan))
    (wide : scan = .descending → part.toList ≠ [] → ∀ w ∈ clipped, ∀ q ∈ queues,
      q.Outlasts w.range scan)
    (made : rounds fresh scan (entire.scanned scan) queues = .ok rows) :
    ∃ kept cut, rounds fresh scan (part.scanned scan) queues = .ok kept ∧
      cut.map (·.time) = clipped.map (·.outputTime) ∧ rows = scan.arrange kept cut := by
  cases scan with
  | ascending =>
    rw [WindowSeries.scanned, split] at made
    obtain ⟨kept, cut, first, same, last⟩ := of_rounds_append made
    exact ⟨kept, cut, first, last, same⟩
  | descending =>
    rw [WindowSeries.scanned, split, List.reverse_append] at made turn
    rcases clipped with _ | ⟨window, _ | _⟩
    · exact ⟨rows, [], made, rfl, rfl⟩
    · obtain ⟨aggregators, rest, _, others, rfl⟩ := of_rounds_cons made
      refine ⟨rest, [⟨window.outputTime, outputRow aggregators⟩], ?_, rfl, rfl⟩
      by_cases none : part.toList = []
      · rw [WindowSeries.scanned, none]
        rw [none] at others
        exact others
      · rw [← others]
        exact (rounds_skipPast gather fit turn (wide rfl none window List.mem_cons_self)).symm
    · simp at one

end MergeStage
end WindowFold
