import Mathlib
import WindowFold.Calendar

/-! Counting by months. Each month begins where the one before it ends, a day
lies in its month, and more months later is a later time. -/
namespace WindowFold.Calendar

/-- The twelve places of a month in its year. -/
private theorem monthOfYear_cases (month : Int) :
    monthOfYear month = 0 ∨ monthOfYear month = 1 ∨ monthOfYear month = 2 ∨
      monthOfYear month = 3 ∨ monthOfYear month = 4 ∨ monthOfYear month = 5 ∨
      monthOfYear month = 6 ∨ monthOfYear month = 7 ∨ monthOfYear month = 8 ∨
      monthOfYear month = 9 ∨ monthOfYear month = 10 ∨ monthOfYear month = 11 := by
  unfold monthOfYear
  omega

theorem isLeapYear_iff (year : Int) :
    isLeapYear year = true ↔ year % 4 = 0 ∧ (year % 100 ≠ 0 ∨ year % 400 = 0) := by
  simp [isLeapYear]

theorem daysBeforeYear_succ (year : Int) :
    daysBeforeYear (year + 1) = daysBeforeYear year + (if isLeapYear year then 366 else 365) := by
  simp only [daysBeforeYear, isLeapYear_iff]
  split <;> omega

theorem firstDay_succ (month : Int) :
    firstDay (month + 1) = firstDay month + monthLength month := by
  have year : yearOf (month + 1) =
      if monthOfYear month = 11 then yearOf month + 1 else yearOf month := by
    unfold yearOf monthOfYear
    split <;> omega
  have place : monthOfYear (month + 1) =
      if monthOfYear month = 11 then 0 else monthOfYear month + 1 := by
    unfold monthOfYear
    split <;> omega
  have days := daysBeforeYear_succ (yearOf month)
  rw [firstDay, firstDay, monthLength, daysBeforeMonth, daysBeforeMonth, year, place]
  rcases monthOfYear_cases month with h | h | h | h | h | h | h | h | h | h | h | h <;>
    rw [h] <;> cases leap : isLeapYear (yearOf month) <;> simp [leap] at days ⊢ <;> omega

theorem monthLength_pos (month : Int) : 0 < monthLength month := by
  unfold monthLength
  split
  · split <;> omega
  · omega
  · omega
  · omega
  · omega
  · omega

theorem firstDay_mono {month later : Int} (order : month ≤ later) :
    firstDay month ≤ firstDay later := by
  obtain ⟨months, rfl⟩ := Int.le.dest order
  induction months with
  | zero => simp
  | succ months ih =>
    have step := firstDay_succ (month + months)
    have longer := monthLength_pos (month + months)
    have earlier := ih (by omega)
    push_cast
    rw [← Int.add_assoc, step]
    omega

/-- Over 400 years a month has 146097 / 4800 days on average; its first day is never
further than five days from that. -/
theorem firstDay_average (month : Int) :
    month * 146097 - 24000 ≤ (firstDay month + 719528) * 4800 ∧
      (firstDay month + 719528) * 4800 ≤ month * 146097 + 24000 := by
  have parts : month = 12 * yearOf month + monthOfYear month := by
    unfold yearOf monthOfYear
    omega
  have leap : ∀ b : Bool, 0 ≤ (if b then (1 : Int) else 0) ∧ (if b then (1 : Int) else 0) ≤ 1 := by
    decide
  have extra := leap (isLeapYear (yearOf month) && 2 ≤ monthOfYear month)
  rw [firstDay, daysBeforeMonth, daysBeforeYear]
  generalize
    (if isLeapYear (yearOf month) && 2 ≤ monthOfYear month then (1 : Int) else 0) = day at *
  generalize yearOf month = year at *
  rcases monthOfYear_cases month with h | h | h | h | h | h | h | h | h | h | h | h <;>
    rw [h] at parts ⊢ <;> simp only [Int.reduceToNat] <;> omega

/-- The estimate is never ahead of a day by more than a month. -/
theorem firstDay_monthEstimate (day : Int) : firstDay (monthEstimate day - 1) ≤ day := by
  have near := (firstDay_average (monthEstimate day - 1)).2
  unfold monthEstimate at near ⊢
  omega

/-- Nor is it behind by more than that. -/
theorem lt_firstDay_monthEstimate (day : Int) : day < firstDay (monthEstimate day + 2) := by
  have near := (firstDay_average (monthEstimate day + 2)).1
  unfold monthEstimate at near ⊢
  omega

/-- A day lies in its month or after it. -/
theorem firstDay_monthOfDay (day : Int) : firstDay (monthOfDay day) ≤ day := by
  have near := firstDay_monthEstimate day
  simp only [monthOfDay]
  split
  · exact near
  · split <;> omega

/-- It lies before the month that follows. -/
theorem lt_firstDay_monthOfDay (day : Int) : day < firstDay (monthOfDay day + 1) := by
  have near := lt_firstDay_monthEstimate day
  simp only [monthOfDay]
  split
  next before => rwa [sub_add_cancel]
  next =>
    split
    next => rwa [add_assoc]
    next within => exact Int.not_le.1 within

/-- No other month has the day. -/
theorem monthOfDay_eq {month day : Int} (first : firstDay month ≤ day)
    (last : day < firstDay (month + 1)) : monthOfDay day = month := by
  have after := firstDay_monthOfDay day
  have before := lt_firstDay_monthOfDay day
  rcases lt_trichotomy (monthOfDay day) month with less | same | more
  · have := firstDay_mono (show monthOfDay day + 1 ≤ month by omega)
    omega
  · exact same
  · have := firstDay_mono (show month + 1 ≤ monthOfDay day by omega)
    omega

namespace Moment

theorem day_of (t : Timestamp) : 0 ≤ (Moment.of t).day := by
  have := firstDay_monthOfDay (t / dayLength)
  simp only [Moment.of]
  omega

theorem time_of (t : Timestamp) : 0 ≤ (Moment.of t).time ∧ (Moment.of t).time < dayLength :=
  ⟨Int.emod_nonneg t (by decide), Int.emod_lt_of_pos t (by decide)⟩

/-- No months later it is the same time. -/
theorem later_of (t : Timestamp) : (Moment.of t).later 0 = t := by
  have last := lt_firstDay_monthOfDay (t / dayLength)
  have whole := Int.ediv_mul_add_emod t dayLength
  rw [firstDay_succ] at last
  simp only [later, Moment.of, Nat.cast_zero, add_zero, Timestamp] at *
  rw [Int.min_eq_left (by omega), add_sub_cancel]
  exact whole

/-- Months later the day of the month is the same, or the last one of a shorter month,
and so is the time of day. -/
theorem of_later {m : Moment} (day : 0 ≤ m.day) (time : 0 ≤ m.time ∧ m.time < dayLength)
    (months : Nat) : Moment.of (m.later months) =
      ⟨m.month + months, min m.day (monthLength (m.month + months) - 1), m.time⟩ := by
  have length := monthLength_pos (m.month + months)
  have next := firstDay_succ (m.month + months)
  have days : m.later months / dayLength =
      firstDay (m.month + months) + min m.day (monthLength (m.month + months) - 1) := by
    rw [later, Int.add_comm, Int.add_mul_ediv_right _ _ (by decide),
      Int.ediv_eq_zero_of_lt time.1 time.2, Int.zero_add]
  have rest : m.later months % dayLength = m.time := by
    rw [later, Int.add_comm, Int.add_mul_emod_self_right, Int.emod_eq_of_lt time.1 time.2]
  have found : monthOfDay (firstDay (m.month + months) +
      min m.day (monthLength (m.month + months) - 1)) = m.month + months := by
    apply monthOfDay_eq <;> omega
  simp only [Moment.of, days, found, rest, add_sub_cancel_left]

theorem later_lt_later {m : Moment} (day : 0 ≤ m.day) {months more : Nat} (order : months < more) :
    m.later months < m.later more := by
  have step := firstDay_succ (m.month + months)
  have far := firstDay_mono (show m.month + months + 1 ≤ m.month + more by omega)
  have longer := monthLength_pos (m.month + more)
  simp only [later, dayLength, Timestamp]
  omega

theorem later_mono {m : Moment} (day : 0 ≤ m.day) {months more : Nat} (order : months ≤ more) :
    m.later months ≤ m.later more := by
  rcases Nat.lt_or_eq_of_le order with further | rfl
  · exact Int.le_of_lt (later_lt_later day further)
  · exact Int.le_refl _

end Moment
end WindowFold.Calendar
