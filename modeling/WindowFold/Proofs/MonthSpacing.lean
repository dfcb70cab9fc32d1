import WindowFold.Proofs.Spacing

/-! Calendar windows. Each is counted in months from the start of the query, so the day
of the month does not drift; there is one from every start before the end of the query on,
and none reaches into the next. -/
namespace WindowFold

namespace Calendar

def after (start : Timestamp) (months : Nat) : Timestamp := (Moment.of start).later months

/-- The second time is this many months after the first: in the month so much later, on
the same day or, where that month is shorter, on its last day, at the same time of day. -/
structure IsLater (start later : Timestamp) (months : Nat) : Prop where
  month : (Moment.of later).month = (Moment.of start).month + months
  day : (Moment.of later).day =
    min (Moment.of start).day (monthLength (Moment.of later).month - 1)
  time : (Moment.of later).time = (Moment.of start).time

theorem isLater_after (start : Timestamp) (months : Nat) :
    IsLater start (after start months) months := by
  have moment := Moment.of_later (Moment.day_of start) (Moment.time_of start) months
  constructor <;> rw [after, moment]

end Calendar

namespace Grouping

/-- The window that starts `index` steps of months after the query, up to its end. -/
def monthSlot (g : Grouping) (interval step index : Nat) : Window :=
  .between g.leftClosed (Calendar.after g.start (index * step))
    (min (Calendar.after g.start (index * step + interval)) g.stop)

/-- There is a window this many steps after the first one. One that is cut short counts
only if it is kept. -/
def HasMonthSlot (g : Grouping) (interval step : Nat) (keepsClipped : Bool) (index : Nat) : Prop :=
  Calendar.after g.start (index * step) < g.stop ∧
    (keepsClipped = true ∨ Calendar.after g.start (index * step + interval) ≤ g.stop)

/-- What the calendar windows of a query are, in time order. -/
structure LaidOutByMonth (g : Grouping) (interval step : Nat) (keepsClipped : Bool)
    (windows : List Window) : Prop where
  slots : windows = (List.range windows.length).map (g.monthSlot interval step)
  number : ∀ index, index < windows.length ↔ g.HasMonthSlot interval step keepsClipped index
  first : Calendar.after g.start 0 = g.start
  calendar : ∀ months, Calendar.IsLater g.start (Calendar.after g.start months) months
  nonempty : ∀ w ∈ windows, w.range.min ≤ w.range.max
  apart : windows.Pairwise fun w v => w.range.max < v.range.min
  /-- Nothing starts before the end of the query after a window that reaches past it. -/
  clipped : ∀ index, g.stop < Calendar.after g.start (index * step + interval) →
    ∀ other, Calendar.after g.start (other * step) < g.stop → other ≤ index

end Grouping

namespace Calendar.Moment

def span (m : Moment) (stop : Timestamp) (interval offset : Nat) : Timestamp × Timestamp :=
  (m.later offset, min (m.later (offset + interval)) stop)

def Spans (m : Moment) (stop : Timestamp) (interval : Nat) (keepsClipped : Bool) (offset : Nat) :
    Prop :=
  m.later offset < stop ∧ (keepsClipped = true ∨ m.later (offset + interval) ≤ stop)

variable {m : Moment} {stop : Timestamp} {interval step offset : Nat} {keepsClipped : Bool}

theorem not_spans (day : 0 ≤ m.day) (past : stop ≤ m.later offset) {further : Nat}
    (order : offset ≤ further) : ¬ m.Spans stop interval keepsClipped further := by
  intro spans
  have far := later_mono day order
  have started := spans.1
  simp only [Timestamp] at *
  omega

/-- A window that is cut short is the only one from there on: the next start would lie
behind its end. -/
theorem spans_iff_of_short (day : 0 ≤ m.day) (distance : interval ≤ step)
    (started : m.later offset < stop) (short : stop < m.later (offset + interval)) (index : Nat) :
    m.Spans stop interval keepsClipped (offset + index * step) ↔
      index = 0 ∧ keepsClipped = true := by
  cases index with
  | zero =>
    have cut := Int.not_le.2 short
    simp [Spans, started, cut]
  | succ index =>
    have behind : interval ≤ (index + 1) * step :=
      distance.trans (Nat.le_mul_of_pos_left step (Nat.succ_pos index))
    have none : ¬ m.Spans stop interval keepsClipped (offset + (index + 1) * step) :=
      not_spans day (Int.le_of_lt short) (Nat.add_le_add_left behind offset)
    simp [none]

theorem span_of_short (short : stop < m.later (offset + interval)) :
    m.span stop interval offset = (m.later offset, stop) := by
  rw [span, Int.min_eq_right (Int.le_of_lt short)]

theorem span_of_whole (whole : m.later (offset + interval) ≤ stop) :
    m.span stop interval offset = (m.later offset, m.later (offset + interval)) := by
  rw [span, Int.min_eq_left whole]

end Calendar.Moment

namespace WindowSeries
variable {start stop : Timestamp} {moment : Calendar.Moment} {interval step : Nat}
  {keepsClipped : Bool}

theorem lt_of_afterMonths {months : Nat} {t : Timestamp}
    (found : afterMonths start moment months = .ok t) : months < 2147483648 := by
  by_contra far
  rw [afterMonths, Calendar.Moment.later?, if_neg far] at found
  contradiction

/-- From any offset on, the bounds found are those of the windows there are. The fuel
lasts beyond the months that the calendar counts. -/
theorem monthBoundsFrom_spans (day : 0 ≤ moment.day) (length : 0 < interval)
    (distance : interval ≤ step) {fuel offset : Nat} {found bounds : List (Timestamp × Timestamp)}
    (fed : 0 < fuel) (enough : 2147483648 < offset + fuel)
    (made : monthBoundsFrom start stop moment interval step keepsClipped fuel offset found =
      .ok bounds) :
    ∃ count, bounds = found.reverse ++
        (List.range count).map (fun index => moment.span stop interval (offset + index * step)) ∧
      ∀ index, index < count ↔ moment.Spans stop interval keepsClipped (offset + index * step) := by
  induction fuel generalizing offset found with
  | zero => contradiction
  | succ fuel ih =>
    rw [monthBoundsFrom] at made
    split at made
    · contradiction
    next first from_ =>
    have near := lt_of_afterMonths from_
    obtain rfl := afterMonths_eq_ok from_
    split at made
    next past =>
      cases made
      refine ⟨0, by simp, fun index => ⟨fun none => by contradiction, fun spans => ?_⟩⟩
      exact absurd spans (Calendar.Moment.not_spans day past (Nat.le_add_right _ _))
    next open_ =>
    split at made
    · contradiction
    next last to_ =>
    obtain rfl := afterMonths_eq_ok to_
    have started : moment.later offset < stop := Int.not_le.1 open_
    split at made
    next short =>
      have single : ∀ index, moment.Spans stop interval keepsClipped (offset + index * step) ↔
          index = 0 ∧ keepsClipped = true :=
        Calendar.Moment.spans_iff_of_short day distance started short
      cases keepsClipped with
      | false =>
        cases made
        exact ⟨0, by simp, fun index => by simp [single]⟩
      | true =>
        cases made
        refine ⟨1, ?_, fun index => by simp [single]⟩
        simp [Calendar.Moment.span_of_short short]
    next whole =>
      have ended : moment.later (offset + interval) ≤ stop := Int.not_lt.1 whole
      obtain ⟨count, more, number⟩ := ih (by omega) (by omega) made
      have shift : ∀ index, offset + step + index * step = offset + (index + 1) * step :=
        fun index => by rw [Nat.succ_mul]; omega
      refine ⟨count + 1, ?_, fun index => ?_⟩
      · rw [more, List.range_succ_eq_map, List.map_cons, List.map_map, List.reverse_cons,
          List.append_assoc, List.singleton_append, Nat.zero_mul, Nat.add_zero,
          Calendar.Moment.span_of_whole ended]
        simp only [shift]
        rfl
      · cases index with
        | zero => simp [Calendar.Moment.Spans, started, ended]
        | succ index => rw [Nat.succ_lt_succ_iff, number, shift]

end WindowSeries

namespace Grouping
variable {g : Grouping} {interval step count index other : Nat} {keepsClipped : Bool}

theorem after_le_after (distance : interval ≤ step) (order : index < other) :
    Calendar.after g.start (index * step + interval) ≤ Calendar.after g.start (other * step) := by
  apply Calendar.Moment.later_mono (Calendar.Moment.day_of g.start)
  calc index * step + interval
    _ ≤ (index + 1) * step := by rw [Nat.succ_mul]; omega
    _ ≤ other * step := Nat.mul_le_mul_right step order

theorem after_lt_after (length : 0 < interval) :
    Calendar.after g.start (index * step) < Calendar.after g.start (index * step + interval) :=
  Calendar.Moment.later_lt_later (Calendar.Moment.day_of g.start) (by omega)

theorem monthSlot_nonempty (length : 0 < interval)
    (started : Calendar.after g.start (index * step) < g.stop) :
    (g.monthSlot interval step index).range.min ≤ (g.monthSlot interval step index).range.max := by
  have long := @after_lt_after g interval step index length
  rw [monthSlot, Window.between]
  split
  · simp only [Timestamp] at *
    omega
  · simp only [Timestamp] at *
    omega

theorem monthSlot_apart (distance : interval ≤ step) (order : index < other) :
    (g.monthSlot interval step index).range.max < (g.monthSlot interval step other).range.min :=
  Window.between_apart g.leftClosed
    ((Int.min_le_left _ _).trans (after_le_after distance order))

theorem laidOutByMonth (length : 0 < interval) (distance : interval ≤ step)
    (number : ∀ index, index < count ↔ g.HasMonthSlot interval step keepsClipped index) :
    g.LaidOutByMonth interval step keepsClipped
      ((List.range count).map (g.monthSlot interval step)) := by
  constructor
  · rw [List.length_map, List.length_range]
  · intro index
    rw [List.length_map, List.length_range]
    exact number index
  · exact Calendar.Moment.later_of g.start
  · exact Calendar.isLater_after g.start
  · intro w member
    obtain ⟨index, inside, rfl⟩ := List.mem_map.1 member
    exact monthSlot_nonempty length ((number index).1 (List.mem_range.1 inside)).1
  · exact List.pairwise_map.2 (List.pairwise_lt_range.imp (monthSlot_apart distance))
  · intro index past other started
    by_contra later
    have reach := after_le_after (g := g) distance (Nat.not_le.1 later)
    simp only [Timestamp] at *
    omega

end Grouping

namespace WindowSeries
variable {g : Grouping} {interval step : Nat} {keepsClipped : Bool} {series : WindowSeries}

/-- A series of calendar windows is laid out as asked for, by months from the start of the
query, and a cursor tells its windows in their order. -/
theorem ofGrouping_months (long : g.interval = .months interval) (far : g.step = .months step)
    (made : ofGrouping g keepsClipped = .ok series) :
    g.LaidOutByMonth interval step keepsClipped series.toList ∧
      series.toList.length = series.count ∧
      ∀ scan n, (Cursor.start series scan).walk n =
        ((series.scanned scan).map fun w => (w.range, w.outputTime)).take n := by
  have fits := (Grouping.of_validate (validate_of_grouping made)).2
  rw [long, far] at fits
  refine ⟨?_, by rw [toList, List.length_map, List.length_range], fun scan n => ?_⟩
  · obtain ⟨bounds, walked, rfl⟩ := of_grouping_months long far made
    obtain ⟨count, spans, number⟩ := monthBoundsFrom_spans (Calendar.Moment.day_of g.start)
      fits.1 fits.2 (by decide) (by decide) walked
    have slots : bounds.map (fun b => Window.between g.leftClosed b.1 b.2) =
        (List.range count).map (g.monthSlot interval step) := by
      simp only [spans, List.reverse_nil, List.nil_append, List.map_map, Nat.zero_add]
      rfl
    rw [toList_listed, slots]
    apply Grouping.laidOutByMonth fits.1 fits.2
    intro index
    rw [number, Nat.zero_add]
    rfl
  · rw [Cursor.walk_eq, Cursor.left_start]

end WindowSeries

/-- From 31 January to 20 April 2024, month by month. -/
def Grouping.lastDays : Grouping where
  start := 1706659200000
  stop := 1713571200000
  interval := .months 1
  slidingStep := none
  leftClosed := true

theorem WindowSeries.ofGrouping_lastDays :
    ∃ series, ofGrouping .lastDays true = .ok series ∧
      series.toList.map (·.range.min) = [1706659200000, 1709164800000, 1711843200000] ∧
      Grouping.lastDays.LaidOutByMonth 1 1 true series.toList := by
  have made : ofGrouping .lastDays true = .ok (.listed 1706659200000 true
      [(1706659200000, 1709164800000), (1709164800000, 1711843200000),
        (1711843200000, 1713571200000)]) := by decide +kernel
  exact ⟨_, made, by decide, (ofGrouping_months rfl rfl made).1⟩

end WindowFold
