import WindowFold.Proofs.Folding

/-! What a settled accumulator does with more of its window. It is done with
rows, but not with partial results: one of a time that lies nearer to the wanted
end still takes the place of what was kept. -/
namespace WindowFold

theorem Scalar.toInt64?_ok (s : Scalar) : ∃ n, s.toInt64? = .ok n := by
  obtain ⟨type, value⟩ := s
  have converts : type.convertsTo .int64 = true := by cases type <;> rfl
  cases value with
  | none => exact ⟨none, rfl⟩
  | some x => exact ⟨_, if_pos converts⟩

/-- What an accumulator is given between two resets. -/
inductive Feed where
  | rows (times : List Timestamp) (values : Column)
  | share (columns : List Scalar)
  deriving DecidableEq

namespace Accumulator

/-- A feed that is refused leaves what was taken in before. -/
def feed (acc : Accumulator) : Feed → Accumulator
  | .rows times values => (acc.addRows times values).toOption.getD acc
  | .share columns => (acc.addPartial columns).2

def feedAll (acc : Accumulator) (feeds : List Feed) : Accumulator := feeds.foldl feed acc

def kept? : Accumulator → Option (Position × Timestamp)
  | valueAt position _ _ found => found.map fun (time, _) => (position, time)
  | timeAt position _ found => found.map fun time => (position, time)
  | _ => none

def shareTime? (acc : Accumulator) (columns : List Scalar) : Option Timestamp :=
  match acc, columns with
  | valueAt .., [s, time] => if s.isNull then none else time.toInt64?.toOption.join
  | timeAt .., [time] => time.toInt64?.toOption.join
  | _, _ => none

/-- Rows never overtake what is kept. -/
def overtakenBy (acc : Accumulator) : Feed → Bool
  | .rows _ _ => false
  | .share columns =>
    match acc.kept?, acc.shareTime? columns with
    | some (position, current), some time => position.prefers time current
    | _, _ => false

/-- The later one keeps something of a time nearer to the same end. -/
def Outdone (acc later : Accumulator) : Prop :=
  ∃ position current time, acc.kept? = some (position, current) ∧
    later.kept? = some (position, time) ∧ position.prefers time current = true

variable {acc later : Accumulator}

theorem Outdone.trans {last : Accumulator} (first : acc.Outdone later)
    (second : later.Outdone last) : acc.Outdone last := by
  obtain ⟨position, current, time, before, between, nearer⟩ := first
  obtain ⟨same, middle, final, again, after, further⟩ := second
  obtain ⟨rfl, rfl⟩ : position = same ∧ time = middle := by
    simpa using between.symm.trans again
  exact ⟨position, current, final, before, after,
    position.ranking.transitive final time current further nearer⟩

/-- The time of what is kept stands last in the partial result. -/
theorem getLast?_partialResult {position : Position} {time : Timestamp}
    (kept : acc.kept? = some (position, time)) :
    acc.partialResult.getLast? = some ⟨.int64, some time⟩ := by
  cases acc with
  | count | sum | avg | extremum | extreme => contradiction
  | valueAt end_ scan type found =>
    obtain ⟨row, rfl, same⟩ := Option.map_eq_some_iff.1 kept
    cases same
    rfl
  | timeAt end_ scan found =>
    obtain ⟨row, rfl, same⟩ := Option.map_eq_some_iff.1 kept
    cases same
    rfl

theorem Outdone.partialResult_ne (outdone : acc.Outdone later) :
    later.partialResult ≠ acc.partialResult := by
  obtain ⟨position, current, time, before, after, nearer⟩ := outdone
  intro same
  have last := congrArg List.getLast? same
  rw [getLast?_partialResult before, getLast?_partialResult after] at last
  obtain rfl : time = current := by simpa using last
  rw [position.ranking.irreflexive] at nearer
  contradiction

theorem feed_share (columns : List Scalar) :
    acc.feed (.share columns) = (acc.addPartial columns).2 := rfl

theorem feed_rows (settled : acc.isSettled = true) (times : List Timestamp) (values : Column) :
    acc.feed (.rows times values) = acc := by
  cases acc with
  | count | sum | avg | extremum | extreme => contradiction
  | valueAt => simp [feed, addRows, settled, Except.toOption]
  | timeAt => simp [feed, addRows, settled, Except.toOption]

/-- A value beside a time is one more offer; without either it is passed over. -/
theorem addPartial_valueAt (position : Position) (scan : Scan) (type : ScalarType)
    (found : Option (Timestamp × Scalar)) (s time : Scalar) :
    (valueAt position scan type found).addPartial [s, time] =
      (.ok (), valueAt position scan type
        (((valueAt position scan type found).shareTime? [s, time]).elim found fun t =>
          choose (fun x y => position.prefers x.1 y.1) found (t, s))) := by
  obtain ⟨t, read⟩ := time.toInt64?_ok
  cases null : s.isNull with
  | true => simp [addPartial, shareTime?, null]
  | false => cases t <;> simp [addPartial, shareTime?, null, read, Except.toOption, ← offerValue_eq]

theorem addPartial_timeAt (position : Position) (scan : Scan) (found : Option Timestamp)
    (time : Scalar) : (timeAt position scan found).addPartial [time] =
      (.ok (), timeAt position scan
        (((timeAt position scan found).shareTime? [time]).elim found
          (choose position.prefers found))) := by
  obtain ⟨t, read⟩ := time.toInt64?_ok
  cases t <;> simp [addPartial, shareTime?, read, Except.toOption, offerTime_eq]

theorem addPartial_settled {position : Position} {current : Timestamp}
    (settled : acc.isSettled = true) (kept : acc.kept? = some (position, current))
    (columns : List Scalar) :
    match (acc.shareTime? columns).filter (position.prefers · current) with
    | some time => (acc.addPartial columns).2.isSettled = true ∧
      (acc.addPartial columns).2.kept? = some (position, time)
    | none => (acc.addPartial columns).2 = acc := by
  cases acc with
  | count | sum | avg | extremum | extreme => contradiction
  | valueAt toward scan type found =>
    obtain ⟨⟨before, value⟩, rfl, same⟩ := Option.map_eq_some_iff.1 kept
    obtain ⟨rfl, rfl⟩ : toward = position ∧ before = current := by simpa using same
    rcases columns with _ | ⟨s, _ | ⟨offered, _ | _⟩⟩
    · rfl
    · rfl
    · rw [addPartial_valueAt]
      cases timed : (valueAt toward scan type (some (before, value))).shareTime? [s, offered] with
      | none => rfl
      | some time =>
        cases nearer : toward.prefers time before with
        | true => simpa [Option.filter, nearer, choose, isSettled, kept?] using settled
        | false => simp [Option.filter, nearer, choose]
    · rfl
  | timeAt toward scan found =>
    obtain ⟨before, rfl, same⟩ := Option.map_eq_some_iff.1 kept
    obtain ⟨rfl, rfl⟩ : toward = position ∧ before = current := by simpa using same
    rcases columns with _ | ⟨offered, _ | _⟩
    · rfl
    · rw [addPartial_timeAt]
      cases timed : (timeAt toward scan (some before)).shareTime? [offered] with
      | none => rfl
      | some time =>
        cases nearer : toward.prefers time before with
        | true => simpa [Option.filter, nearer, choose, isSettled, kept?] using settled
        | false => simp [Option.filter, nearer, choose]
    · rfl

theorem kept_of_settled (settled : acc.isSettled = true) :
    ∃ position current, acc.kept? = some (position, current) := by
  cases acc with
  | count | sum | avg | extremum | extreme => contradiction
  | valueAt position scan type found =>
    cases found with
    | none => contradiction
    | some row => exact ⟨position, row.1, rfl⟩
  | timeAt position scan found =>
    cases found with
    | none => contradiction
    | some time => exact ⟨position, time, rfl⟩

theorem feed_settled (settled : acc.isSettled = true) (feed : Feed) :
    if acc.overtakenBy feed then (acc.feed feed).isSettled = true ∧ acc.Outdone (acc.feed feed)
    else acc.feed feed = acc := by
  cases feed with
  | rows times values => exact feed_rows settled times values
  | share columns =>
    obtain ⟨position, current, kept⟩ := kept_of_settled settled
    have effect := addPartial_settled settled kept columns
    cases timed : acc.shareTime? columns with
    | none => simpa [feed_share, overtakenBy, kept, timed] using effect
    | some time =>
      cases nearer : position.prefers time current with
      | true =>
        obtain ⟨still, after⟩ : _ ∧ _ := by simpa [timed, Option.filter, nearer] using effect
        simpa [feed_share, overtakenBy, kept, timed, nearer] using
          ⟨still, position, current, time, kept, after, nearer⟩
      | false =>
        simpa [feed_share, overtakenBy, kept, timed, nearer, Option.filter] using effect

/-- Once overtaken, what was kept never comes back. -/
theorem outdone_feedAll (settled : later.isSettled = true) (outdone : acc.Outdone later)
    (feeds : List Feed) :
    (later.feedAll feeds).isSettled = true ∧ acc.Outdone (later.feedAll feeds) := by
  induction feeds generalizing later with
  | nil => exact ⟨settled, outdone⟩
  | cons feed rest ih =>
    have step := feed_settled settled feed
    split at step
    · exact ih step.1 (outdone.trans step.2)
    · exact ih (step.symm ▸ settled) (step.symm ▸ outdone)

/-- A settled accumulator stays settled, and it keeps its result exactly if no
partial result overtakes it. -/
theorem feedAll_settled (settled : acc.isSettled = true) (feeds : List Feed) :
    (acc.feedAll feeds).isSettled = true ∧
      ((acc.feedAll feeds).result = acc.result ∧
          (acc.feedAll feeds).partialResult = acc.partialResult ↔
        ∀ feed ∈ feeds, acc.overtakenBy feed = false) := by
  induction feeds with
  | nil => simp [feedAll, settled]
  | cons feed rest ih =>
    have step := feed_settled settled feed
    cases overtaken : acc.overtakenBy feed with
    | true =>
      obtain ⟨still, outdone⟩ : _ ∧ _ := by simpa [overtaken] using step
      obtain ⟨after, further⟩ := outdone_feedAll still outdone rest
      refine ⟨after, iff_of_false ?_ ?_⟩
      · exact fun same => further.partialResult_ne same.2
      · exact fun none => by simpa [overtaken] using none feed List.mem_cons_self
    | false =>
      have same : acc.feedAll (feed :: rest) = acc.feedAll rest := by
        rw [feedAll, List.foldl_cons, show acc.feed feed = acc by simpa [overtaken] using step]
        rfl
      simpa [same, overtaken] using ih

theorem feedAll_settled_sample :
    (valueAt .first .ascending .int64 (some (7, .int64 1))).isSettled = true ∧
      (feedAll (valueAt .first .ascending .int64 (some (7, .int64 1)))
        [.rows [3] ⟨.int64, [some 2]⟩, .share [.int64 2, .int64 8]]).isSettled = true ∧
      (feedAll (valueAt .first .ascending .int64 (some (7, .int64 1)))
        [.rows [3] ⟨.int64, [some 2]⟩, .share [.int64 2, .int64 8]]).result = .int64 1 := by
  have settled : (valueAt .first .ascending .int64 (some (7, .int64 1))).isSettled = true := rfl
  have still := feedAll_settled settled [.rows [3] ⟨.int64, [some 2]⟩, .share [.int64 2, .int64 8]]
  exact ⟨settled, still.1, (still.2.2 (by decide)).1⟩

/-- The result is final after the first partial result, and yet the second one
takes its place. -/
theorem overtaken_share :
    create .firstValue .int64 .ascending = .ok (valueAt .first .ascending .int64 none) ∧
      (feedAll (valueAt .first .ascending .int64 none)
        [.share [.int64 1, .int64 7]]).isSettled = true ∧
      (feedAll (valueAt .first .ascending .int64 none)
        [.share [.int64 1, .int64 7]]).result = .int64 1 ∧
      (feedAll (valueAt .first .ascending .int64 none)
        [.share [.int64 1, .int64 7], .share [.int64 2, .int64 3]]).result = .int64 2 := by
  decide

end Accumulator
end WindowFold
