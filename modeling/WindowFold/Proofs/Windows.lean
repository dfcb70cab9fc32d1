import WindowFold.Proofs.Cuts
import WindowFold.Proofs.Months
import WindowFold.Window.Series

/-! The windows of a query lie one after the other, each with its output time
in it, and a cursor meets them all in the order of the scan. -/
namespace WindowFold

/-- What a scan meets before the first range or within it, it meets before the second. -/
def TimeRange.Precedes (scan : Scan) (range later : TimeRange) : Prop :=
  ∀ t, range.isAheadOf scan t = true ∨ range.contains t = true → later.isAheadOf scan t = true

/-- What is not past a range is ahead of a later one. -/
theorem TimeRange.Precedes.isAheadOf {scan : Scan} {range later : TimeRange}
    (precedes : range.Precedes scan later) {t : Timestamp} (met : range.isPassedBy scan t = false) :
    later.isAheadOf scan t = true := by
  refine precedes t ?_
  rw [range.contains_eq scan, met]
  cases range.isAheadOf scan t <;> simp

/-- Both ends are 64-bit counts. -/
def Grouping.OnClock (g : Grouping) : Prop :=
  Timestamp.least ≤ g.start ∧ g.stop ≤ Timestamp.greatest

/-- Both lengths have one unit, and the first is positive and not the longer one. -/
def Duration.Fits : Duration → Duration → Prop
  | millis interval, millis step => 0 < interval ∧ interval ≤ step
  | months interval, months step => 0 < interval ∧ interval ≤ step
  | _, _ => False

/-- What a query accepts. -/
theorem Grouping.of_validate {g : Grouping} (valid : g.validate = .ok ()) :
    g.start < g.stop ∧ g.interval.Fits g.step := by
  rw [validate] at valid
  split at valid
  · contradiction
  next started =>
  refine ⟨Int.not_le.1 started, ?_⟩
  split at valid
  · contradiction
  next positive =>
  rw [Bool.not_eq_true, Bool.or_eq_false_iff, Bool.not_eq_false', Bool.not_eq_false'] at positive
  cases length : g.interval with
  | millis interval =>
    cases distance : g.step with
    | months step => simp [length, distance] at valid
    | millis step =>
      simp only [length, distance, Duration.isPositive, decide_eq_true_eq] at valid positive
      split at valid
      · contradiction
      next far => exact ⟨positive.1, Int.not_lt.1 far⟩
  | months interval =>
    cases distance : g.step with
    | millis step => simp [length, distance] at valid
    | months step =>
      simp only [length, distance, Duration.isPositive, decide_eq_true_eq] at valid positive
      split at valid
      · contradiction
      next far => exact ⟨positive.1, Nat.not_lt.1 far⟩

/-- Bounds of windows, each after its predecessor. -/
structure Chained (bounds : List (Timestamp × Timestamp)) : Prop where
  apart : bounds.Pairwise fun b c => b.2 ≤ c.1
  long : ∀ b ∈ bounds, b.1 < b.2

namespace Window

theorem between_apart (leftClosed : Bool) {first last next after : Timestamp}
    (apart : last ≤ next) :
    (between leftClosed first last).range.max < (between leftClosed next after).range.min := by
  cases leftClosed <;> simp only [between, Bool.false_eq_true, if_true, if_false,
    Timestamp] at * <;>
    omega

theorem between_contains (leftClosed : Bool) {first last : Timestamp} (long : first < last) :
    (between leftClosed first last).range.contains (between leftClosed first last).outputTime =
      true := by
  cases leftClosed <;> simp only [between, Bool.false_eq_true, if_true, if_false,
    TimeRange.contains, Bool.and_eq_true, decide_eq_true_eq, Timestamp] at * <;> omega

end Window

namespace WindowSeries

/-- How many starts `step` apart there are before the end. -/
theorem lt_of_lt_fixedCount {start stop : Timestamp} {interval step : Int} {keepClipped : Bool}
    (positive : 0 < step) {index : Nat}
    (counted : index < fixedCount start stop interval step keepClipped) :
    start + index * step < stop := by
  have inside : (index : Int) < (stop - start + step - 1) / step := by
    simp only [fixedCount] at counted
    split at counted <;> omega
  have least := (Int.le_ediv_iff_mul_le positive).1 (Int.add_one_le_iff.2 inside)
  rw [add_mul, one_mul] at least
  simp only [Timestamp] at *
  omega

theorem chained_fixed {start stop : Timestamp} {interval step : Int} (keepClipped : Bool)
    (length : 0 < interval) (distance : interval ≤ step) (least : Timestamp.least ≤ start)
    (greatest : stop ≤ Timestamp.greatest) :
    Chained ((List.range (fixedCount start stop interval step keepClipped)).map fun index : Nat =>
      (start + index * step, min (Timestamp.plus (start + index * step) interval) stop)) := by
  constructor
  · refine List.pairwise_map.2 (List.pairwise_lt_range.imp fun {i j} order => ?_)
    have further : (i : Int) * step + step ≤ j * step := by
      have := Int.mul_le_mul_of_nonneg_right (show (i : Int) + 1 ≤ j by omega) (by omega : 0 ≤ step)
      rwa [add_mul, one_mul] at this
    have forward : 0 ≤ (i : Int) * step := mul_nonneg (by omega) (by omega)
    simp only [Timestamp.plus, Timestamp] at *
    omega
  · intro bounds member
    obtain ⟨i, inside, rfl⟩ := List.mem_map.1 member
    have early := lt_of_lt_fixedCount (by omega) (List.mem_range.1 inside)
    simp only [Timestamp.plus, Timestamp] at *
    omega

theorem afterMonths_eq_ok {start : Timestamp} {moment : Calendar.Moment} {months : Nat}
    {t : Timestamp} (found : afterMonths start moment months = .ok t) :
    t = moment.later months := by
  unfold afterMonths Calendar.Moment.later? at found
  split at found
  next later =>
    split at later
    · simp only at later
      split at later
      · cases later
        cases found
        rfl
      · contradiction
    · contradiction
  · contradiction

/-- The bounds found last come first. -/
theorem chained_monthBoundsFrom {start stop : Timestamp} {moment : Calendar.Moment}
    (day : 0 ≤ moment.day) {interval step : Nat} (length : 0 < interval)
    (distance : interval ≤ step)
    {keepClipped : Bool} {fuel offset : Nat} {found bounds : List (Timestamp × Timestamp)}
    (chained : Chained found.reverse) (before : ∀ b ∈ found, b.2 ≤ moment.later offset)
    (made : monthBoundsFrom start stop moment interval step keepClipped fuel offset found =
      .ok bounds) : Chained bounds := by
  induction fuel generalizing offset found with
  | zero =>
    cases made
    exact chained
  | succ fuel ih =>
    have extend : ∀ last, moment.later offset < last →
        Chained ((moment.later offset, last) :: found).reverse := by
      intro last long
      rw [List.reverse_cons]
      refine ⟨List.pairwise_append.2 ⟨chained.apart, List.pairwise_singleton _ _, ?_⟩, ?_⟩
      · intro b member c last
        rw [List.mem_singleton.1 last]
        exact before b (List.mem_reverse.1 member)
      · intro b member
        rcases List.mem_append.1 member with earlier | last
        · exact chained.long b earlier
        · rw [List.mem_singleton.1 last]
          exact long
    rw [monthBoundsFrom] at made
    split at made
    · contradiction
    next first from_ =>
    obtain rfl := afterMonths_eq_ok from_
    split at made
    · cases made
      exact chained
    next open_ =>
    split at made
    · contradiction
    next last to_ =>
    obtain rfl := afterMonths_eq_ok to_
    split at made
    · cases keepClipped with
      | false =>
        cases made
        exact chained
      | true =>
        cases made
        exact extend stop (Int.not_le.1 open_)
    · have long := Calendar.Moment.later_lt_later day (show offset < offset + interval by omega)
      refine ih (extend _ long) (fun b member => ?_) made
      have reach := Calendar.Moment.later_mono day (Nat.add_le_add_left distance offset)
      rcases List.mem_cons.1 member with rfl | earlier
      · exact reach
      · exact Int.le_trans (before b earlier) (Int.le_trans (Int.le_of_lt long) reach)

theorem toList_listed (start : Timestamp) (leftClosed : Bool)
    (bounds : List (Timestamp × Timestamp)) : (listed start leftClosed bounds).toList =
      bounds.map fun b => .between leftClosed b.1 b.2 := by
  apply List.ext_getElem
  · simp [toList, count]
  · intro i inside _
    have bound : i < bounds.length := by simpa [toList, count] using inside
    simp [toList, window, List.getD_eq_getElem?_getD, bound]

/-- A series comes of a valid query only. -/
theorem validate_of_grouping {g : Grouping} {keepClipped : Bool} {series : WindowSeries}
    (made : ofGrouping g keepClipped = .ok series) : g.validate = .ok () := by
  rw [ofGrouping] at made
  split at made
  · contradiction
  next valid => exact valid

/-- A series of calendar windows lists the bounds that were found. -/
theorem of_grouping_months {g : Grouping} {interval step : Nat} {keepClipped : Bool}
    {series : WindowSeries} (long : g.interval = .months interval) (far : g.step = .months step)
    (made : ofGrouping g keepClipped = .ok series) :
    ∃ bounds, monthBoundsFrom g.start g.stop (.of g.start) interval step keepClipped monthLimit 0 []
        = .ok bounds ∧ series = .listed g.start g.leftClosed bounds := by
  rw [ofGrouping, validate_of_grouping made, long, far] at made
  simp only [monthBounds] at made
  split at made
  · cases walked : monthBoundsFrom g.start g.stop (.of g.start) interval step keepClipped
        monthLimit 0 [] with
    | error e =>
      rw [walked] at made
      contradiction
    | ok bounds =>
      rw [walked] at made
      cases made
      exact ⟨bounds, rfl, rfl⟩
  · contradiction

/-- Every accepted grouping gives windows between bounds that follow each other. -/
theorem chained_of_grouping {g : Grouping} (clock : g.OnClock) {keepClipped : Bool}
    {series : WindowSeries} (made : ofGrouping g keepClipped = .ok series) :
    ∃ bounds, Chained bounds ∧
      series.toList = bounds.map fun b => .between g.leftClosed b.1 b.2 := by
  have fits := (Grouping.of_validate (validate_of_grouping made)).2
  cases length : g.interval with
  | millis interval =>
    cases distance : g.step with
    | months step => exact absurd fits (by simp [length, distance, Duration.Fits])
    | millis step =>
      rw [length, distance] at fits
      rw [ofGrouping, validate_of_grouping made, length, distance] at made
      cases made
      refine ⟨_, chained_fixed keepClipped fits.1 fits.2 clock.1 clock.2, ?_⟩
      rw [List.map_map]
      rfl
  | months interval =>
    cases distance : g.step with
    | millis step => exact absurd fits (by simp [length, distance, Duration.Fits])
    | months step =>
      rw [length, distance] at fits
      obtain ⟨bounds, walked, rfl⟩ := of_grouping_months length distance made
      exact ⟨bounds, chained_monthBoundsFrom (Calendar.Moment.day_of g.start) fits.1 fits.2
        ⟨List.Pairwise.nil, by simp⟩ (by simp) walked, toList_listed g.start g.leftClosed bounds⟩

section
variable {grouping : Option Grouping} {keepClipped : Bool} {series : WindowSeries}

theorem toList_apart (clock : ∀ g ∈ grouping, g.OnClock)
    (made : ofGrouping? grouping keepClipped = .ok series) :
    series.toList.Pairwise fun w v => w.range.max < v.range.min := by
  cases grouping with
  | none =>
    cases made
    exact List.pairwise_singleton _ _
  | some g =>
    obtain ⟨bounds, chained, windows⟩ := chained_of_grouping (clock g rfl) made
    rw [windows]
    exact List.pairwise_map.2 (chained.apart.imp fun apart => Window.between_apart _ apart)

/-- The time written to a window's row lies in the window. -/
theorem contains_outputTime (clock : ∀ g ∈ grouping, g.OnClock)
    (made : ofGrouping? grouping keepClipped = .ok series) :
    ∀ w ∈ series.toList, w.range.contains w.outputTime = true := by
  cases grouping with
  | none =>
    cases made
    intro w member
    rw [List.mem_singleton.1 member]
    decide
  | some g =>
    obtain ⟨bounds, chained, windows⟩ := chained_of_grouping (clock g rfl) made
    intro w member
    rw [windows] at member
    obtain ⟨b, inside, rfl⟩ := List.mem_map.1 member
    exact Window.between_contains _ (chained.long b inside)

theorem mem_scanned {scan : Scan} {w : Window} : w ∈ series.scanned scan ↔ w ∈ series.toList := by
  cases scan <;> simp [scanned]

theorem length_scanned (series : WindowSeries) (scan : Scan) :
    (series.scanned scan).length = series.count := by
  cases scan <;> simp [scanned, toList]

theorem scanned_precedes (scan : Scan) (clock : ∀ g ∈ grouping, g.OnClock)
    (made : ofGrouping? grouping keepClipped = .ok series) :
    (series.scanned scan).Pairwise fun w v => w.range.Precedes scan v.range := by
  have apart := List.Pairwise.and_mem.1 (toList_apart clock made)
  have real := contains_outputTime clock made
  cases scan with
  | ascending =>
    refine apart.imp fun {w v} both t met => ?_
    obtain ⟨member, _, far⟩ := both
    have inside := real w member
    simp only [TimeRange.contains, TimeRange.isAheadOf, Bool.and_eq_true, decide_eq_true_eq,
      Timestamp] at *
    omega
  | descending =>
    refine (List.pairwise_reverse.2 apart).imp fun {w v} both t met => ?_
    obtain ⟨_, member, far⟩ := both
    have inside := real w member
    simp only [TimeRange.contains, TimeRange.isAheadOf, Bool.and_eq_true, decide_eq_true_eq,
      Timestamp] at *
    omega

end
end WindowSeries

/-- Windows in the order of a scan, each with its output time in it. -/
structure InTurn (scan : Scan) (windows : List Window) : Prop where
  chain : windows.Pairwise fun x y => x.range.Precedes scan y.range
  real : ∀ w ∈ windows, w.range.contains w.outputTime = true

theorem WindowSeries.inTurn (scan : Scan) {grouping : Option Grouping} {keepClipped : Bool}
    {series : WindowSeries} (clock : ∀ g ∈ grouping, g.OnClock)
    (made : ofGrouping? grouping keepClipped = .ok series) : InTurn scan (series.scanned scan) where
  chain := scanned_precedes scan clock made
  real w member := contains_outputTime clock made w (mem_scanned.1 member)

namespace InTurn
variable {scan : Scan} {window : Window} {coming : List Window}

theorem tail (turn : InTurn scan (window :: coming)) : InTurn scan coming where
  chain := turn.chain.of_cons
  real w member := turn.real w (List.mem_cons_of_mem _ member)

/-- The output time of a later window is past the first one. -/
theorem past (turn : InTurn scan (window :: coming)) {w : Window} (member : w ∈ coming) :
    window.range.isPassedBy scan w.outputTime = true := by
  have later := List.rel_of_pairwise_cons turn.chain member
  have inside := turn.real w (List.mem_cons_of_mem _ member)
  have reached : w.range.isAheadOf scan w.outputTime = false := by
    rw [w.range.contains_eq scan, Bool.and_eq_true, Bool.not_eq_true'] at inside
    exact inside.1
  by_contra passed
  rw [later.isAheadOf (eq_false_of_ne_true passed)] at reached
  contradiction

theorem inOrder (turn : InTurn scan (window :: coming)) {w : Window} (member : w ∈ coming) :
    scan.inOrder window.outputTime w.outputTime = true := by
  have inside := turn.real window List.mem_cons_self
  have passed := turn.past member
  cases scan <;> simp only [TimeRange.contains, TimeRange.isPassedBy, Scan.inOrder,
    Bool.and_eq_true, decide_eq_true_eq, Timestamp] at * <;> omega

/-- The output times follow the scan. -/
theorem times_inOrder {windows : List Window} (turn : InTurn scan windows) :
    windows.Pairwise fun w v => scan.inOrder w.outputTime v.outputTime = true := by
  induction windows with
  | nil => exact List.Pairwise.nil
  | cons window coming ih =>
    exact List.Pairwise.cons (fun _ later => turn.inOrder later) (ih turn.tail)

/-- Rows with the output times of the windows are in scan order. -/
theorem ordered {windows : List Window} (turn : InTurn scan windows) {part : Window → Row}
    (timed : ∀ w, (part w).time = w.outputTime) : scan.Ordered (windows.map part) := by
  apply List.pairwise_map.2
  simp only [timed]
  exact turn.times_inOrder

end InTurn

namespace Cursor

/-- The windows not met yet, as they will be met. -/
def left (c : Cursor) : List Window := (c.series.scanned c.scan).drop c.emitted

@[simp] theorem left_start (series : WindowSeries) (scan : Scan) :
    (start series scan).left = series.scanned scan := rfl

theorem remaining_eq (c : Cursor) : c.remaining = c.left.length := by
  rw [left, List.length_drop, WindowSeries.length_scanned, remaining]

theorem hasNext_eq (c : Cursor) : c.hasNext = !c.left.isEmpty := by
  have := remaining_eq c
  rw [remaining] at this
  cases windows : c.left <;> simp [windows, hasNext] at this ⊢ <;> omega

/-- The next window is the first of those left. -/
theorem next?_spec (c : Cursor) :
    match c.left with
    | [] => c.next? = none
    | w :: rest => ∃ d : Cursor, c.next? = some (w, d) ∧ d.left = rest ∧ d.scan = c.scan := by
  have more := hasNext_eq c
  obtain ⟨series, scan, emitted, time⟩ := c
  cases windows : left ⟨series, scan, emitted, time⟩ with
  | nil => simp [next?, more, windows]
  | cons w rest =>
    simp only [windows, List.isEmpty_cons, Bool.not_false] at more
    have bound : emitted < series.count := by simpa [hasNext] using more
    have inside : emitted < (series.scanned scan).length := by
      rwa [WindowSeries.length_scanned]
    rw [left, List.drop_eq_getElem_cons inside] at windows
    obtain ⟨first, others⟩ := List.cons.inj windows
    refine ⟨⟨series, scan, emitted + 1, w.outputTime⟩, ?_, others, rfl⟩
    rw [next?, if_pos more]
    cases scan <;> simp only [WindowSeries.scanned, WindowSeries.toList, List.getElem_reverse,
      List.getElem_map, List.getElem_range, List.length_map, List.length_range] at first ⊢ <;>
      rw [first]

variable {c d : Cursor} {w : Window}

theorem of_next? (met : c.next? = some (w, d)) : c.left = w :: d.left ∧ d.scan = c.scan := by
  have next := c.next?_spec
  cases windows : c.left with
  | nil =>
    rw [windows] at next
    cases met.symm.trans next
  | cons first rest =>
    rw [windows] at next
    obtain ⟨e, head, coming, scan⟩ := next
    cases met.symm.trans head
    exact ⟨by rw [coming], scan⟩

theorem left_of_next? (spent : c.next? = none) : c.left = [] := by
  have next := c.next?_spec
  cases windows : c.left with
  | nil => rfl
  | cons first rest =>
    rw [windows] at next
    obtain ⟨e, head, _⟩ := next
    cases spent.symm.trans head

end Cursor
end WindowFold
