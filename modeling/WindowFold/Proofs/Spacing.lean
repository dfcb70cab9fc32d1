import WindowFold.Proofs.Windows

/-! Windows of a length in milliseconds. There is one from every start before the end
of the query on, a cursor meets exactly these, and working out their bounds in 64-bit
words never leaves the words. -/
namespace WindowFold

namespace Grouping

def slot (g : Grouping) (interval step : Int) (index : Nat) : Window :=
  .between g.leftClosed (g.start + index * step) (min (g.start + index * step + interval) g.stop)

/-- There is a window this many steps after the first one. One that is cut short counts
only if it is kept. -/
def HasSlot (g : Grouping) (interval step : Int) (keepsClipped : Bool) (index : Nat) : Prop :=
  g.start + index * step < g.stop ∧
    (keepsClipped = true ∨ g.start + index * step + interval ≤ g.stop)

def Asks (g : Grouping) (t : Timestamp) : Prop :=
  if g.leftClosed then g.start ≤ t ∧ t < g.stop else g.start < t ∧ t ≤ g.stop

/-- What the windows of a query are, in time order. -/
structure LaidOut (g : Grouping) (interval step : Int) (keepsClipped : Bool)
    (windows : List Window) : Prop where
  slots : windows = (List.range windows.length).map (g.slot interval step)
  number : ∀ index, index < windows.length ↔ g.HasSlot interval step keepsClipped index
  nonempty : ∀ w ∈ windows, w.range.min ≤ w.range.max
  apart : windows.Pairwise fun w v => ∀ t, ¬(w.range.contains t = true ∧ v.range.contains t = true)
  short : (windows.countP fun w => w.range.max - w.range.min + 1 < interval) ≤ 1
  /-- Without gaps, and with the one cut short, they fill the query. -/
  fills : step = interval → keepsClipped = true →
    ∀ t, (∃ w ∈ windows, w.range.contains t = true) ↔ g.Asks t

end Grouping

def Timestamp.word? (n : Int) : Option Timestamp :=
  if Timestamp.least ≤ n ∧ n ≤ Timestamp.greatest then some n else none

/-- The window as it is worked out in 64-bit words, step by step. -/
def Grouping.slotInWords? (g : Grouping) (interval step : Int) (index : Nat) : Option Window := do
  let place ← Timestamp.word? index
  let distance ← Timestamp.word? (place * step)
  let first ← Timestamp.word? (g.start + distance)
  let last := min (Timestamp.plus first interval) g.stop
  if g.leftClosed then
    let greatest ← Timestamp.word? (last - 1)
    return ⟨⟨first, greatest⟩, first⟩
  else
    let least ← Timestamp.word? (first + 1)
    return ⟨⟨least, last⟩, last⟩

def Cursor.walk : Nat → Cursor → List (TimeRange × Timestamp)
  | 0, _ => []
  | n + 1, c =>
    match c.next? with
    | none => []
    | some (window, c) => (window.range, c.outputTime) :: walk n c

theorem Timestamp.word?_eq {n : Int} (least : Timestamp.least ≤ n)
    (greatest : n ≤ Timestamp.greatest) : word? n = some n := if_pos ⟨least, greatest⟩

theorem Cursor.outputTime_next? {c d : Cursor} {w : Window} (met : c.next? = some (w, d)) :
    d.outputTime = w.outputTime := by
  rw [next?] at met
  split at met
  · cases met
    rfl
  · contradiction

theorem Cursor.walk_eq (n : Nat) (c : Cursor) :
    c.walk n = (c.left.map fun w => (w.range, w.outputTime)).take n := by
  induction n generalizing c with
  | zero => rfl
  | succ n ih =>
    rw [walk]
    cases met : c.next? with
    | none =>
      rw [left_of_next? met]
      rfl
    | some next =>
      obtain ⟨w, d⟩ := next
      rw [(of_next? met).1, List.map_cons, List.take_succ_cons, ← ih d, ← outputTime_next? met]

namespace WindowSeries
variable {start stop : Timestamp} {interval step : Int} {keepClipped : Bool} {index : Nat}

/-- The number of starts before the end, rounded up. -/
theorem lt_ceil_iff (start stop : Timestamp) (index : Nat) (positive : 0 < step) :
    (index : Int) < (stop - start + step - 1) / step ↔ start + index * step < stop := by
  rw [← Int.add_one_le_iff, Int.le_ediv_iff_mul_le positive, add_mul, one_mul]
  simp only [Timestamp]
  omega

/-- The closed form counts the windows that there are. -/
theorem lt_fixedCount_iff (start stop : Timestamp) (keepClipped : Bool) (index : Nat)
    (length : 0 < interval) (distance : interval ≤ step) :
    index < fixedCount start stop interval step keepClipped ↔
      start + index * step < stop ∧
        (keepClipped = true ∨ start + index * step + interval ≤ stop) := by
  have positive : 0 < step := lt_of_lt_of_le length distance
  rw [← lt_ceil_iff start stop index positive, fixedCount]
  generalize ceil : (stop - start + step - 1) / step = count
  -- Before the last window every one is whole: the next one starts where it has ended.
  have whole : (index : Int) < count - 1 → start + index * step + interval ≤ stop := by
    intro early
    have later := (lt_ceil_iff start stop (index + 1) positive).1
      (by rw [ceil]; push_cast; omega)
    push_cast at later
    rw [add_mul, one_mul] at later
    simp only [Timestamp] at *
    omega
  have last : (index : Int) = count - 1 → start + (count - 1) * step = start + index * step := by
    intro same
    rw [same]
  split
  next clipped =>
    obtain ⟨short, dropped⟩ : stop < start + (count - 1) * step + interval ∧
      keepClipped = false := by
      simpa using clipped
    rw [dropped]
    simp only [Bool.false_eq_true, false_or, Timestamp] at *
    omega
  next unclipped =>
    rw [Bool.and_eq_true, decide_eq_true_eq, Bool.not_eq_true', not_and, Bool.not_eq_false]
      at unclipped
    cases keepClipped with
    | true =>
      simp only [true_or, and_true]
      omega
    | false =>
      simp only [Bool.false_eq_true, false_or, imp_false, not_lt, Timestamp] at *
      omega

end WindowSeries

namespace Grouping
variable {g : Grouping} {interval step : Int} {keepsClipped : Bool} {index other : Nat}

theorem slot_span :
    (g.slot interval step index).range.max - (g.slot interval step index).range.min + 1 =
      min interval (g.stop - (g.start + index * step)) := by
  rw [slot, Window.between]
  split
  · simp only [Timestamp]
    omega
  · simp only [Timestamp]
    omega

theorem mul_add_le_mul (forward : 0 ≤ step) (order : index < other) :
    (index : Int) * step + step ≤ other * step := by
  have further := Int.mul_le_mul_of_nonneg_right (show (index : Int) + 1 ≤ other by omega) forward
  rwa [add_mul, one_mul] at further

/-- Windows do not reach into each other. -/
theorem slot_apart (length : 0 < interval) (distance : interval ≤ step) (order : index < other) :
    (g.slot interval step index).range.max < (g.slot interval step other).range.min := by
  refine Window.between_apart g.leftClosed ?_
  have further := mul_add_le_mul (length.le.trans distance) order
  simp only [Timestamp]
  omega

theorem last_of_short (length : 0 < interval) (distance : interval ≤ step)
    (clipped : g.stop < g.start + index * step + interval)
    (started : g.start + other * step < g.stop) : other ≤ index := by
  by_contra later
  have further := mul_add_le_mul (length.le.trans distance) (Nat.not_le.1 later)
  simp only [Timestamp] at *
  omega

def beginning (g : Grouping) (t : Timestamp) : Timestamp := if g.leftClosed then t else t - 1

theorem contains_slot {t : Timestamp} : (g.slot interval step index).range.contains t = true ↔
    g.start + index * step ≤ g.beginning t ∧
      g.beginning t < min (g.start + index * step + interval) g.stop := by
  rw [slot, Window.between, beginning]
  split
  · simp only [TimeRange.contains, Bool.and_eq_true, decide_eq_true_eq, Timestamp]
    omega
  · simp only [TimeRange.contains, Bool.and_eq_true, decide_eq_true_eq, Timestamp]
    omega

theorem asks_iff {t : Timestamp} : g.Asks t ↔ g.start ≤ g.beginning t ∧ g.beginning t < g.stop := by
  rw [Asks, beginning]
  split
  · rfl
  · simp only [Timestamp]
    omega

theorem window_fixed (clock : g.OnClock) (length : 0 < interval) (distance : interval ≤ step)
    (count : Nat) (started : g.start + index * step < g.stop) :
    (WindowSeries.fixed g.start g.stop interval step g.leftClosed count).window index =
      g.slot interval step index := by
  obtain ⟨least, greatest⟩ := clock
  have forward : 0 ≤ (index : Int) * step := mul_nonneg (by omega) (by omega)
  have ends : min (Timestamp.plus (g.start + index * step) interval) g.stop =
      min (g.start + index * step + interval) g.stop := by
    simp only [Timestamp.plus, Timestamp] at *
    omega
  rw [slot, ← ends]
  rfl

/-- Among numbered things there is at most one of a kind that only the last one is of. -/
theorem countP_range_le_one {p : Nat → Bool} {n : Nat}
    (last : ∀ i, i < n → p i = true → ∀ j, j < n → j ≤ i) : (List.range n).countP p ≤ 1 := by
  cases n with
  | zero => exact Nat.zero_le 1
  | succ n =>
    have before : (List.range n).countP p = 0 := by
      rw [List.countP_eq_zero]
      intro i member found
      have early := List.mem_range.1 member
      have := last i (by omega) found n (by omega)
      omega
    rw [List.range_succ, List.countP_append, before, Nat.zero_add]
    exact List.countP_le_length

theorem laidOut {keepsClipped : Bool} {count : Nat} (length : 0 < interval)
    (distance : interval ≤ step)
    (number : ∀ index, index < count ↔ g.HasSlot interval step keepsClipped index) :
    g.LaidOut interval step keepsClipped ((List.range count).map (g.slot interval step)) := by
  have span : ∀ index, (g.slot interval step index).range.max -
      (g.slot interval step index).range.min + 1 =
        min interval (g.stop - (g.start + index * step)) :=
    fun index => slot_span
  constructor
  · rw [List.length_map, List.length_range]
  · intro index
    rw [List.length_map, List.length_range]
    exact number index
  · intro w member
    obtain ⟨index, inside, rfl⟩ := List.mem_map.1 member
    have started := ((number index).1 (List.mem_range.1 inside)).1
    have := span index
    simp only [Timestamp] at *
    omega
  · apply List.pairwise_map.2
    apply List.pairwise_lt_range.imp
    intro i j order t both
    have far := slot_apart (g := g) length distance order
    simp only [TimeRange.contains, Bool.and_eq_true, decide_eq_true_eq, Timestamp] at *
    omega
  · rw [List.countP_map]
    apply countP_range_le_one
    intro i inside short j bound
    rw [Function.comp_apply, decide_eq_true_eq, span i] at short
    apply last_of_short length distance _ ((number j).1 bound).1
    simp only [Timestamp] at *
    omega
  · intro same kept t
    subst same
    rw [asks_iff]
    constructor
    · rintro ⟨w, member, inside⟩
      obtain ⟨index, _, rfl⟩ := List.mem_map.1 member
      have forward : 0 ≤ (index : Int) * step := mul_nonneg (by omega) (by omega)
      have := contains_slot.1 inside
      simp only [Timestamp] at *
      omega
    · rintro ⟨after, before⟩
      -- The time lies in the window that starts at the last multiple of the length before it.
      obtain ⟨index, place⟩ := Int.eq_ofNat_of_zero_le
        (Int.ediv_nonneg (Int.sub_nonneg.2 after) (Int.le_of_lt length))
      have below := Int.ediv_mul_le (g.beginning t - g.start) (Int.ne_of_gt length)
      have above := Int.lt_ediv_add_one_mul_self (g.beginning t - g.start) length
      rw [place] at below above
      rw [add_mul, one_mul] at above
      have counted : index < count := by
        apply (number index).2
        constructor
        · simp only [Timestamp] at *
          omega
        · exact .inl kept
      refine ⟨_, List.mem_map.2 ⟨index, List.mem_range.2 counted, rfl⟩, contains_slot.2 ?_⟩
      simp only [Timestamp] at *
      omega

theorem slotInWords?_eq (clock : g.OnClock) (span : g.stop - g.start ≤ Timestamp.greatest)
    (length : 0 < interval) (distance : interval ≤ step)
    (started : g.start + index * step < g.stop) :
    g.slotInWords? interval step index = some (g.slot interval step index) := by
  rw [← window_fixed clock length distance 0 started]
  obtain ⟨least, greatest⟩ := clock
  have forward : (0 : Int) ≤ index := Int.natCast_nonneg index
  have far : (index : Int) ≤ index * step := le_mul_of_one_le_right forward (by omega)
  have place : Timestamp.word? index = some (index : Int) := by
    apply Timestamp.word?_eq <;> simp only [Timestamp.least, Timestamp.greatest, Timestamp] at * <;>
      omega
  have moved : Timestamp.word? (index * step) = some (index * step) := by
    apply Timestamp.word?_eq <;> simp only [Timestamp.least, Timestamp.greatest, Timestamp] at * <;>
      omega
  have first : Timestamp.word? (g.start + index * step) = some (g.start + index * step) := by
    apply Timestamp.word?_eq <;> simp only [Timestamp] at * <;> omega
  have last :
      g.start + index * step < min (Timestamp.plus (g.start + index * step) interval) g.stop ∧
      min (Timestamp.plus (g.start + index * step) interval) g.stop ≤ Timestamp.greatest := by
    simp only [Timestamp.plus, Timestamp] at *
    omega
  simp only [slotInWords?, place, moved, first, Option.bind_eq_bind, Option.bind_some]
  rw [WindowSeries.window, Window.between]
  split
  · rw [Timestamp.word?_eq]
    · rfl
    · simp only [Timestamp] at *
      omega
    · simp only [Timestamp] at *
      omega
  · rw [Timestamp.word?_eq]
    · rfl
    · simp only [Timestamp] at *
      omega
    · simp only [Timestamp] at *
      omega

theorem validate_millis (long : g.interval = .millis interval) (far : g.step = .millis step)
    (valid : g.validate = .ok ()) : g.start < g.stop ∧ 0 < interval ∧ interval ≤ step := by
  have accepted := of_validate valid
  rwa [long, far] at accepted

end Grouping

namespace WindowSeries
variable {g : Grouping} {interval step : Int}

/-- A query in milliseconds has a series of windows, which are laid out as asked for, with
their number and their order told by the cursor, and found without overflow. -/
theorem ofGrouping_millis (clock : g.OnClock) (span : g.stop - g.start ≤ Timestamp.greatest)
    (long : g.interval = .millis interval) (far : g.step = .millis step)
    (valid : g.validate = .ok ()) (keepsClipped : Bool) :
    ∃ series, ofGrouping g keepsClipped = .ok series ∧
      g.LaidOut interval step keepsClipped series.toList ∧
      series.toList.length = series.count ∧
      (∀ index < series.count, g.slotInWords? interval step index = some (series.window index)) ∧
      ∀ scan n, (Cursor.start series scan).walk n =
        ((series.scanned scan).map fun w => (w.range, w.outputTime)).take n := by
  obtain ⟨_, length, distance⟩ := Grouping.validate_millis long far valid
  have number := fun index =>
    lt_fixedCount_iff g.start g.stop keepsClipped index length distance
  refine ⟨.fixed g.start g.stop interval step g.leftClosed
    (fixedCount g.start g.stop interval step keepsClipped), ?_, ?_, ?_, ?_, ?_⟩
  · rw [ofGrouping, valid, long, far]
  · have slots : toList (.fixed g.start g.stop interval step g.leftClosed
        (fixedCount g.start g.stop interval step keepsClipped)) =
        (List.range (fixedCount g.start g.stop interval step keepsClipped)).map
          (g.slot interval step) := by
      apply List.map_congr_left
      intro index member
      exact Grouping.window_fixed clock length distance _
        ((number index).1 (List.mem_range.1 member)).1
    rw [slots]
    exact Grouping.laidOut length distance number
  · rw [toList, List.length_map, List.length_range]
  · intro index inside
    have started := ((number index).1 inside).1
    rw [Grouping.window_fixed clock length distance _ started]
    exact Grouping.slotInWords?_eq clock span length distance started
  · intro scan n
    rw [Cursor.walk_eq, Cursor.left_start]

end WindowSeries

/-- Twenty-two milliseconds up to the last time there is: a gap, and a window cut short. -/
def Grouping.lastMoments : Grouping where
  start := Timestamp.greatest - 22
  stop := Timestamp.greatest
  interval := .millis 10
  slidingStep := some (.millis 15)
  leftClosed := true

theorem WindowSeries.ofGrouping_lastMoments :
    ∃ series, ofGrouping .lastMoments true = .ok series ∧
      Grouping.lastMoments.LaidOut 10 15 true series.toList ∧
      series.toList.length = series.count ∧
      (∀ index < series.count,
        Grouping.lastMoments.slotInWords? 10 15 index = some (series.window index)) ∧
      ∀ scan n, (Cursor.start series scan).walk n =
        ((series.scanned scan).map fun w => (w.range, w.outputTime)).take n :=
  ofGrouping_millis ⟨by decide, by decide⟩ (by decide) rfl rfl rfl true

end WindowFold
