import WindowFold.Proofs.MonthSpacing

/-! The search for calendar windows turn by turn, with its months counted in words of 32
bits. Nothing in it bounds the turns or the counts: that it comes to an end, and that no
count leaves its word, is due to the calendar, which covers too few months for either. -/
namespace WindowFold

namespace Calendar

def addMonths? (start : Timestamp) (months : Nat) : Option Timestamp :=
  if covers start then (Moment.of start).later? months else none

/-- The months of the supported years, which are -262143 to 262142. -/
def monthsCovered : Nat := 12 * 524286

theorem le_monthOfDay_iff {month day : Int} : month ≤ monthOfDay day ↔ firstDay month ≤ day := by
  constructor
  · intro order
    exact (firstDay_mono order).trans (firstDay_monthOfDay day)
  · intro begun
    by_contra later
    have ended := firstDay_mono (Int.add_one_le_iff.2 (Int.not_le.1 later))
    have next := lt_firstDay_monthOfDay day
    omega

theorem month_of_covers {t : Timestamp} (inside : covers t = true) :
    12 * -262143 ≤ (Moment.of t).month ∧ (Moment.of t).month < 12 * 262143 := by
  obtain ⟨after, before⟩ : earliest ≤ t ∧ t ≤ latest := by simpa [covers] using inside
  have long : 0 < dayLength := by decide
  constructor
  · apply le_monthOfDay_iff.2
    have first : firstDay (12 * -262143) = earliest / dayLength := by decide
    rw [first]
    exact Int.ediv_le_ediv long after
  · apply Int.not_le.1
    intro late
    have begun : firstDay (12 * 262143) ≤ latest / dayLength :=
      (le_monthOfDay_iff.1 late).trans (Int.ediv_le_ediv long before)
    exact absurd begun (by decide)

theorem lt_monthsCovered {start t : Timestamp} {months : Nat}
    (found : addMonths? start months = some t) : months < monthsCovered := by
  obtain ⟨inside, later⟩ : covers start = true ∧ (Moment.of start).later? months = some t := by
    simpa [addMonths?] using found
  have reached : covers (after start months) = true := by
    simp only [Moment.later?] at later
    split at later
    · split at later
      next covered => exact covered
      · contradiction
    · contradiction
  have first := (month_of_covers inside).1
  have last := (month_of_covers reached).2
  rw [(isLater_after start months).month] at last
  simp only [monthsCovered]
  omega

end Calendar

def Duration.word? (months : Nat) : Option Nat :=
  if months < UInt32.size then some months else none

theorem Duration.word?_eq {months : Nat} (fits : months < UInt32.size) :
    word? months = some months := if_pos fits

structure MonthSearch where
  start : Timestamp
  stop : Timestamp
  interval : Nat
  step : Nat
  keepsClipped : Bool

def Grouping.monthSearch (g : Grouping) (interval step : Nat) (keepsClipped : Bool) : MonthSearch :=
  ⟨g.start, g.stop, interval, step, keepsClipped⟩

namespace MonthSearch

structure State where
  /-- Months from the start of the query to that of the next window. -/
  offset : Nat
  /-- The bounds found so far, the last ones first. -/
  found : List (Timestamp × Timestamp)

def State.initial : State := ⟨0, []⟩

inductive Outcome where
  | ended (bounds : Except Failure (List (Timestamp × Timestamp)))
  | goesOn (s : State)
  | overflowed

def outOfRange (q : MonthSearch) (months : Nat) : Except Failure (List (Timestamp × Timestamp)) :=
  .error (.invalidConfig (.monthOutOfRange q.start months))

def turn (q : MonthSearch) (s : State) : Outcome :=
  match Calendar.addMonths? q.start s.offset with
  | none => .ended (q.outOfRange s.offset)
  | some first =>
    if q.stop ≤ first then .ended (.ok s.found.reverse)
    else
      match Duration.word? (s.offset + q.interval) with
      | none => .overflowed
      | some reach =>
        match Calendar.addMonths? q.start reach with
        | none => .ended (q.outOfRange reach)
        | some last =>
          if q.stop < last then
            .ended (.ok (if q.keepsClipped then (first, q.stop) :: s.found else s.found).reverse)
          else
            match Duration.word? (s.offset + q.step) with
            | none => .overflowed
            | some next => .goesOn ⟨next, (first, last) :: s.found⟩

def run (q : MonthSearch) : Nat → State → Outcome
  | 0, s => .goesOn s
  | turns + 1, s =>
    match q.turn s with
    | .goesOn t => q.run turns t
    | outcome => outcome

/-- A search fails only with a number of months after which the calendar has no time. -/
def Settles (q : MonthSearch) (bounds : Except Failure (List (Timestamp × Timestamp))) : Prop :=
  ∀ e, bounds = .error e → ∃ months, Calendar.addMonths? q.start months = none ∧
    e = .invalidConfig (.monthOutOfRange q.start months)

/-- What is found with the number of windows bounded by `fuel`. -/
def boundsWithin (q : MonthSearch) (fuel : Nat) (s : State) :
    Except Failure (List (Timestamp × Timestamp)) :=
  if Calendar.covers q.start then
    WindowSeries.monthBoundsFrom q.start q.stop (.of q.start) q.interval q.step q.keepsClipped fuel
      s.offset s.found
  else q.outOfRange s.offset

theorem boundsWithin_succ (q : MonthSearch) (fuel : Nat) (s : State) :
    q.boundsWithin (fuel + 1) s =
      match Calendar.addMonths? q.start s.offset with
      | none => q.outOfRange s.offset
      | some first =>
        if q.stop ≤ first then .ok s.found.reverse
        else
          match Calendar.addMonths? q.start (s.offset + q.interval) with
          | none => q.outOfRange (s.offset + q.interval)
          | some last =>
            if q.stop < last then
              .ok (if q.keepsClipped then (first, q.stop) :: s.found else s.found).reverse
            else q.boundsWithin fuel ⟨s.offset + q.step, (first, last) :: s.found⟩ := by
  cases inside : Calendar.covers q.start with
  | false => simp [boundsWithin, Calendar.addMonths?, inside]
  | true =>
    have added : ∀ months, WindowSeries.afterMonths q.start (.of q.start) months =
        match Calendar.addMonths? q.start months with
        | none => .error (.invalidConfig (.monthOutOfRange q.start months))
        | some t => .ok t := by
      intro months
      rw [WindowSeries.afterMonths, Calendar.addMonths?, if_pos inside]
      cases (Calendar.Moment.of q.start).later? months <;> rfl
    rw [boundsWithin, if_pos inside, WindowSeries.monthBoundsFrom, added, added]
    cases Calendar.addMonths? q.start s.offset with
    | none => rfl
    | some first =>
      cases Calendar.addMonths? q.start (s.offset + q.interval) with
      | none => rfl
      | some last => simp only [boundsWithin, if_pos inside]

/-- No step has been taken, or the last one was taken from a time of the calendar. -/
def State.Paced (q : MonthSearch) (s : State) : Prop :=
  s.offset = 0 ∨ ∃ before < Calendar.monthsCovered, s.offset = before + q.step

/-- What a turn comes to in a search whose counts fit their words: it finds what a search
with bounded windows finds with one of them. -/
inductive Comes (q : MonthSearch) (s : State) : Outcome → Prop where
  | ended {bounds : Except Failure (List (Timestamp × Timestamp))} (settles : q.Settles bounds)
      (same : ∀ fuel, q.boundsWithin (fuel + 1) s = bounds) : Comes q s (.ended bounds)
  | goesOn {t : State} (paced : t.Paced q) (further : t.offset = s.offset + q.step)
      (same : ∀ fuel, q.boundsWithin (fuel + 1) s = q.boundsWithin fuel t) : Comes q s (.goesOn t)

variable {q : MonthSearch} {s : State}

theorem settles_ok (found : List (Timestamp × Timestamp)) : q.Settles (.ok found) := nofun

theorem settles_outOfRange {months : Nat} (missing : Calendar.addMonths? q.start months = none) :
    q.Settles (q.outOfRange months) := by
  intro e refused
  cases refused
  exact ⟨months, missing, rfl⟩

section
variable (distance : q.interval ≤ q.step) (word : q.step < UInt32.size)
include distance word

/-- The first sums are the lengths themselves. After that no length is greater than the
offset, and twice an offset that the calendar reaches still fits a word. -/
theorem sums_fit (paced : s.Paced q) (near : s.offset < Calendar.monthsCovered) :
    s.offset + q.interval < UInt32.size ∧ s.offset + q.step < UInt32.size := by
  simp only [Calendar.monthsCovered, UInt32.size] at *
  rcases paced with first | ⟨before, _, reached⟩
  · omega
  · omega

theorem turn_comes (paced : s.Paced q) : Comes q s (q.turn s) := by
  have found := fun fuel => q.boundsWithin_succ fuel s
  rw [turn]
  cases begins : Calendar.addMonths? q.start s.offset with
  | none =>
    simp only [begins] at found
    exact .ended (settles_outOfRange begins) found
  | some first =>
    have near := Calendar.lt_monthsCovered begins
    obtain ⟨reach, next⟩ := sums_fit distance word paced near
    simp only [begins, Duration.word?_eq reach, Duration.word?_eq next] at found ⊢
    split
    next past =>
      simp only [if_pos past] at found
      exact .ended (settles_ok _) found
    next open_ =>
    simp only [if_neg open_] at found
    cases ends : Calendar.addMonths? q.start (s.offset + q.interval) with
    | none =>
      simp only [ends] at found
      exact .ended (settles_outOfRange ends) found
    | some last =>
      simp only [ends] at found ⊢
      split
      next short =>
        simp only [if_pos short] at found
        exact .ended (settles_ok _) found
      next whole =>
        simp only [if_neg whole] at found
        exact .goesOn (.inr ⟨s.offset, near, rfl⟩) rfl found

theorem run_ne_overflowed (turns : Nat) (paced : s.Paced q) : q.run turns s ≠ .overflowed := by
  induction turns generalizing s with
  | zero => nofun
  | succ turns ih =>
    have comes := turn_comes distance word paced
    rw [run]
    generalize q.turn s = outcome at comes
    cases comes with
    | ended => nofun
    | goesOn still => exact ih still

/-- With turns enough to leave the calendar, and one more, a search is over. It has found
what is found with as many windows or more. -/
theorem run_ends {turns : Nat} (paced : s.Paced q)
    (enough : Calendar.monthsCovered + q.step ≤ s.offset + turns * q.step) :
    ∃ bounds, q.run turns s = .ended bounds ∧ q.Settles bounds ∧
      ∀ spare, q.boundsWithin (turns + spare) s = bounds := by
  induction turns generalizing s with
  | zero =>
    -- no state that the search comes to lies so far out
    rcases paced with first | ⟨before, near, reached⟩
    · simp [first, Calendar.monthsCovered] at enough
    · omega
  | succ turns ih =>
    have comes := turn_comes distance word paced
    rw [run]
    generalize q.turn s = outcome at comes
    cases comes with
    | ended settles same =>
      refine ⟨_, rfl, settles, ?_⟩
      intro spare
      rw [Nat.add_right_comm]
      exact same _
    | goesOn still further same =>
      rw [Nat.succ_mul] at enough
      obtain ⟨bounds, ended, settles, found⟩ := ih still (by omega)
      refine ⟨bounds, ended, settles, ?_⟩
      intro spare
      rw [Nat.add_right_comm, same]
      exact found spare

end

variable {g : Grouping} {interval step : Nat}

/-- The search for the windows of a query in months ends, after two turns more than the
calendar has steps at the latest, and no count of months leaves its word on the way. The
windows of the query are the ones it finds; without them it names a time out of range. -/
theorem ends_in_words (long : g.interval = .months interval) (far : g.step = .months step)
    (word : step < UInt32.size) (valid : g.validate = .ok ()) (keepsClipped : Bool) :
    ∃ bounds,
      (g.monthSearch interval step keepsClipped).run (Calendar.monthsCovered / step + 2) .initial =
        .ended bounds ∧
      (∀ turns, (g.monthSearch interval step keepsClipped).run turns .initial ≠ .overflowed) ∧
      (g.monthSearch interval step keepsClipped).Settles bounds ∧
      WindowSeries.ofGrouping g keepsClipped = bounds.map (.listed g.start g.leftClosed) := by
  have fits := (Grouping.of_validate valid).2
  rw [long, far] at fits
  obtain ⟨length, distance⟩ : 0 < interval ∧ interval ≤ step := fits
  have begun : State.initial.Paced (g.monthSearch interval step keepsClipped) := .inl rfl
  have leaves : Calendar.monthsCovered + step ≤
      State.initial.offset + (Calendar.monthsCovered / step + 2) * step := by
    have whole := Nat.lt_mul_div_succ Calendar.monthsCovered (Nat.lt_of_lt_of_le length distance)
    calc Calendar.monthsCovered + step
      _ ≤ step * (Calendar.monthsCovered / step + 1) + step := Nat.add_le_add_right whole.le step
      _ = State.initial.offset + (Calendar.monthsCovered / step + 2) * step := by
        simp only [State.initial]
        ring
  obtain ⟨bounds, ended, settles, found⟩ := run_ends distance word begun leaves
  have few : Calendar.monthsCovered / step + 2 ≤ WindowSeries.monthLimit :=
    calc Calendar.monthsCovered / step + 2
      _ ≤ Calendar.monthsCovered + 2 := Nat.add_le_add_right (Nat.div_le_self _ step) 2
      _ ≤ WindowSeries.monthLimit := by decide
  obtain ⟨spare, limit⟩ := Nat.exists_eq_add_of_le few
  have listed : WindowSeries.ofGrouping g keepsClipped =
      ((g.monthSearch interval step keepsClipped).boundsWithin WindowSeries.monthLimit .initial).map
        (.listed g.start g.leftClosed) := by
    rw [WindowSeries.ofGrouping, valid, long, far]
    rfl
  refine ⟨bounds, ended, ?_, settles, ?_⟩
  · intro turns
    exact run_ne_overflowed distance word turns begun
  · rw [listed, limit, found]

end MonthSearch

/-- The first month of every 4294967295, up to the last time there is. -/
def Grouping.scarce : Grouping where
  start := 0
  stop := Timestamp.greatest
  interval := .months 1
  slidingStep := some (.months 4294967295)
  leftClosed := true

/-- The second turn is as many months away as a word can hold, and is refused. -/
theorem MonthSearch.ends_in_words_scarce :
    (Grouping.scarce.monthSearch 1 4294967295 true).run 2 .initial =
        .ended (.error (.invalidConfig (.monthOutOfRange 0 4294967295))) ∧
    ∃ bounds,
      (Grouping.scarce.monthSearch 1 4294967295 true).run
          (Calendar.monthsCovered / 4294967295 + 2) .initial = .ended bounds ∧
      (∀ turns, (Grouping.scarce.monthSearch 1 4294967295 true).run turns .initial ≠ .overflowed) ∧
      (Grouping.scarce.monthSearch 1 4294967295 true).Settles bounds ∧
      WindowSeries.ofGrouping .scarce true = bounds.map (.listed 0 true) :=
  ⟨rfl, ends_in_words rfl rfl (by decide) rfl true⟩

end WindowFold
