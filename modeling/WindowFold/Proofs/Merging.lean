import WindowFold.Proofs.Typing

/-! Partial results put together. An accumulator that takes in the partial
results of several keeps what one would keep over all of their rows, in
whatever order these come. -/
namespace WindowFold

theorem Binary.place_injective {f : BinaryFormat} {x y : Binary f} (same : x.place = y.place) :
    x = y := by
  obtain ⟨a, m⟩ := x
  obtain ⟨b, n⟩ := y
  cases a <;> cases b <;> simp [Binary.place] at same ⊢ <;> omega

namespace ScalarType
variable {type : ScalarType} {x y z : type.Value}

theorem less_irrefl (x : type.Value) : type.less x x = false := by
  cases type <;> simp [less]

theorem less_trans (first : type.less x y = true) (second : type.less y z = true) :
    type.less x z = true := by
  cases type with
  | boolean => revert x y z; simp [less]
  | integer | date32 | float32 | float64 =>
    simp only [less, decide_eq_true_eq] at first second ⊢
    exact lt_trans first second
  | utf8 =>
    simp only [less, decide_eq_true_eq] at first second ⊢
    exact String.lt_trans first second

/-- The order is total, and no two values have one place in it. -/
theorem eq_of_not_less (first : type.less x y = false) (second : type.less y x = false) :
    x = y := by
  cases type with
  | boolean => revert x y; simp [less]
  | integer | date32 =>
    simp only [less, decide_eq_false_iff_not, not_lt] at first second
    exact le_antisymm second first
  | float32 | float64 =>
    simp only [less, decide_eq_false_iff_not, not_lt] at first second
    exact Binary.place_injective (le_antisymm second first)
  | utf8 =>
    simp only [less, decide_eq_false_iff_not] at first second
    exact String.le_antisymm second first

end ScalarType

namespace Scalar

theorem less_eq_true {s t : Scalar} : s.less t = true ↔
    ∃ (type : ScalarType) (x y : type.Value), s = ⟨type, some x⟩ ∧ t = ⟨type, some y⟩ ∧
      type.less x y = true := by
  obtain ⟨sort, value⟩ := s
  obtain ⟨other, second⟩ := t
  constructor
  · intro less
    by_cases same : other = sort
    · subst same
      cases value <;> cases second <;> simp [Scalar.less, valueAs?] at less
      exact ⟨_, _, _, rfl, rfl, less⟩
    · cases value <;> simp [Scalar.less, valueAs?, same] at less
  · rintro ⟨type, x, y, left, right, less⟩
    cases left
    cases right
    simpa [Scalar.less, valueAs?] using less

theorem less_irrefl (s : Scalar) : s.less s = false := by
  by_contra less
  obtain ⟨type, x, y, left, right, less⟩ := less_eq_true.1 (by simpa using less)
  cases left
  cases right
  rw [ScalarType.less_irrefl] at less
  contradiction

theorem less_trans {s t u : Scalar} (first : s.less t = true) (second : t.less u = true) :
    s.less u = true := by
  obtain ⟨_, x, y, rfl, rfl, less⟩ := less_eq_true.1 first
  obtain ⟨_, _, z, same, rfl, more⟩ := less_eq_true.1 second
  cases same
  exact less_eq_true.2 ⟨_, x, z, rfl, rfl, ScalarType.less_trans less more⟩

@[simp] theorem toInt64?_some (n : Option Int) : (Scalar.mk .int64 n).toInt64? = .ok n := by
  cases n <;> rfl

theorem eq_of_not_less {s t : Scalar} (type : s.type = t.type) (left : s.isNull = false)
    (right : t.isNull = false) (first : s.less t = false) (second : t.less s = false) : s = t := by
  obtain ⟨sort, value⟩ := s
  obtain ⟨other, second'⟩ := t
  obtain rfl : sort = other := type
  cases value with
  | none => contradiction
  | some x =>
    cases second' with
    | none => contradiction
    | some y =>
      simp [Scalar.less, valueAs?] at first second
      rw [ScalarType.eq_of_not_less first second]

end Scalar

namespace Accumulator

theorem ranking_beats (greatest : Bool) : Ranking (beats greatest) where
  irreflexive s := by cases greatest <;> simp [beats, Scalar.less_irrefl]
  transitive s t u := by
    cases greatest <;> simp only [beats, Bool.false_eq_true, if_true, if_false]
    · exact Scalar.less_trans
    · exact fun first second => Scalar.less_trans second first

/-- Partial results of it can be put together without regard to their order. -/
def mergeable : Accumulator → Bool
  | sum _ | avg _ _ | extreme _ _ => false
  | _ => true

/-- What the accumulator keeps is what these rows come to. -/
def Reflects (acc : Accumulator) (rows : List (Timestamp × Scalar)) : Prop :=
  match acc with
  | count n => n = .ofNat (filled rows).length
  | extremum greatest _ best => Best (beats greatest) ((filled rows).map (·.2)) best
  | valueAt position _ _ found => Best (fun x y => position.prefers x.1 y.1) (filled rows) found
  | timeAt position _ found => Best position.prefers ((filled rows).map (·.1)) found
  | sum _ | avg _ _ | extreme _ _ => False

/-- It tells values apart by their times. -/
def byTime : Accumulator → Bool
  | valueAt .. => true
  | _ => false

/-- The values are such as the accumulator is for, and if it tells them apart by
their times, no two have one time. -/
structure Distinguishes (acc : Accumulator) (rows : List (Timestamp × Scalar)) : Prop where
  takes : ∀ row ∈ rows, acc.Takes row.2.type
  apart : acc.byTime = true → (rows.map (·.1)).Nodup

variable {acc other : Accumulator} {rows more : List (Timestamp × Scalar)}

theorem distinguishes_reset : acc.reset.Distinguishes rows ↔ acc.Distinguishes rows := by
  have same : acc.reset.byTime = acc.byTime := by cases acc <;> rfl
  constructor
  · exact fun d => ⟨fun row member => takes_reset.1 (d.takes row member), same ▸ d.apart⟩
  · exact fun d => ⟨fun row member => takes_reset.2 (d.takes row member), same ▸ d.apart⟩

theorem Distinguishes.fewer {fewer : List (Timestamp × Scalar)} (d : acc.Distinguishes rows)
    (part : List.Sublist fewer rows) : acc.Distinguishes fewer where
  takes row member := d.takes row (part.subset member)
  apart byTime := (d.apart byTime).sublist (part.map _)

theorem mem_filled {row : Timestamp × Scalar} (member : row ∈ filled rows) : row ∈ rows :=
  List.mem_of_mem_filter member

theorem filled_append : filled (rows ++ more) = filled rows ++ filled more :=
  List.filter_append ..

theorem ranking_valueAt (position : Position) :
    Ranking fun x y : Timestamp × Scalar => position.prefers x.1 y.1 where
  irreflexive x := position.ranking.irreflexive x.1
  transitive x y z := position.ranking.transitive x.1 y.1 z.1

theorem decisive_beats (greatest : Bool) {type : ScalarType}
    (takes : ∀ row ∈ rows, row.2.type = type) :
    Decisive (beats greatest) ((filled rows).map (·.2)) := by
  intro s left t right first second
  obtain ⟨x, x_, rfl⟩ := List.mem_map.1 left
  obtain ⟨y, y_, rfl⟩ := List.mem_map.1 right
  have same : x.2.type = y.2.type := (takes x (mem_filled x_)).trans (takes y (mem_filled y_)).symm
  cases greatest with
  | false => exact Scalar.eq_of_not_less same (filled_full x x_) (filled_full y y_) first second
  | true => exact Scalar.eq_of_not_less same (filled_full x x_) (filled_full y y_) second first

theorem decisive_prefers (position : Position) (times : List Timestamp) :
    Decisive position.prefers times := by
  intro t _ u _ first second
  cases position <;> simp only [Position.prefers, decide_eq_false_iff_not, Timestamp] at * <;> omega

theorem decisive_valueAt (position : Position) (apart : (rows.map (·.1)).Nodup) :
    Decisive (fun x y => position.prefers x.1 y.1) (filled rows) := by
  intro x left y right first second
  have same := decisive_prefers position [x.1, y.1] x.1 (by simp) y.1 (by simp) first second
  exact List.inj_on_of_nodup_map apart (mem_filled left) (mem_filled right) same

theorem foldl_offerExtremum (greatest : Bool) (best : Option Scalar) :
    (rows.map (·.2)).foldl (offerExtremum greatest) best =
      ((filled rows).map (·.2)).foldl (choose (beats greatest)) best := by
  have same : (filled rows).map (·.2) = (rows.map (·.2)).filter (!·.isNull) := by
    rw [filled, List.filter_map]
    rfl
  rw [same, List.foldl_filter]
  congr 1
  funext best s
  rw [offerExtremum_eq]
  cases s.isNull <;> rfl

/-- A fresh accumulator comes to reflect the rows that it takes in. -/
theorem reflects_absorbAll (mergeable : acc.mergeable = true) (fresh : acc.reset = acc)
    (separable : acc.Separable rows) : (acc.absorbAll rows).Reflects rows := by
  cases acc with
  | sum | avg | extreme => contradiction
  | count n =>
    obtain rfl : 0 = n := count.inj fresh
    rw [absorbAll_count, Int64.zero_add, List.countP_eq_length_filter]
    rfl
  | extremum greatest type best =>
    obtain rfl : none = best := (extremum.inj fresh).2.2
    rw [absorbAll_extremum, foldl_offerExtremum]
    exact best_foldl (ranking_beats greatest) _
  | valueAt position scan type found =>
    obtain rfl : none = found := (valueAt.inj fresh).2.2.2
    rw [← absorbAll_filled]
    cases leads : position.leads scan with
    | true =>
      rw [absorbAll_valueAt_leading leads type filled_full]
      refine best_head? (ranking_valueAt position) ((List.Pairwise.filter _ separable).imp ?_)
      exact fun apart => Position.not_prefers_of_inOrder leads apart.1
    | false =>
      rw [absorbAll_valueAt leads type none filled_full]
      exact best_foldl (ranking_valueAt position) _
  | timeAt position scan found =>
    obtain rfl : none = found := (timeAt.inj fresh).2.2
    rw [← absorbAll_filled]
    cases leads : position.leads scan with
    | true =>
      rw [absorbAll_timeAt_leading leads filled_full, ← List.head?_map]
      refine best_head? position.ranking
        (List.pairwise_map.2 ((List.Pairwise.filter _ separable).imp ?_))
      exact fun order => Position.not_prefers_of_inOrder leads order
    | false =>
      rw [absorbAll_timeAt leads none filled_full]
      exact best_foldl position.ranking _

/-- The partial result of an extremum offers what it has found. -/
theorem offerExtremum_partialResult {greatest : Bool} {type : ScalarType} {found : Option Scalar}
    {rows : List (Timestamp × Scalar)} (right : (extremum greatest type found).Reflects rows)
    (best : Option Scalar) : offerExtremum greatest best (found.getD (.null type)) =
      found.elim best (choose (beats greatest) best) := by
  cases found with
  | none => cases best <;> rfl
  | some s =>
    obtain ⟨row, inside, rfl⟩ := List.mem_map.1 right.1
    rw [Option.getD_some, offerExtremum_eq, filled_full row inside]
    rfl

/-- The partial result of a value by its time offers what it has found. -/
theorem addPartial_partialResult_valueAt {position : Position} {scan : Scan} {type : ScalarType}
    {found : Option (Timestamp × Scalar)} {rows : List (Timestamp × Scalar)}
    (right : (valueAt position scan type found).Reflects rows)
    (best : Option (Timestamp × Scalar)) : (valueAt position scan type best).addPartial
      (valueAt position scan type found).partialResult = (.ok (), valueAt position scan type
        (found.elim best (choose (fun x y => position.prefers x.1 y.1) best))) := by
  cases found with
  | none => rfl
  | some row =>
    have value := filled_full row right.1
    simp only [addPartial, partialResult, Option.map_some, Option.getD_some, value,
      Bool.false_eq_true, if_false, Scalar.toInt64?_some, offerValue_eq, Option.elim_some]

/-- The partial result of a time offers what it has found. -/
theorem addPartial_partialResult_timeAt (position : Position) (scan : Scan)
    (found best : Option Timestamp) :
    (timeAt position scan best).addPartial (timeAt position scan found).partialResult =
      (.ok (), timeAt position scan (found.elim best (choose position.prefers best))) := by
  cases found with
  | none => rfl
  | some t =>
    simp only [addPartial, partialResult, Scalar.toInt64?_some, offerTime_eq, Option.elim_some]

/-- The partial result of another accumulator over other rows is taken in. -/
theorem reflects_addPartial (left : acc.Reflects rows) (right : other.Reflects more)
    (same : acc.reset = other.reset) (distinguishes : acc.Distinguishes (rows ++ more)) :
    ∃ merged, acc.addPartial other.partialResult = (.ok (), merged) ∧
      merged.Reflects (rows ++ more) ∧ merged.reset = acc.reset := by
  cases acc with
  | sum | avg | extreme => exact left.elim
  | count n =>
    cases other with
    | count m =>
      refine ⟨count (n + m), ?_, ?_, rfl⟩
      · rw [partialResult, addPartial, Scalar.int64, Scalar.toInt64?_some]
        simp only [Option.getD_some, Int64.ofInt_toInt]
      · change n + m = .ofNat (filled (rows ++ more)).length
        rw [filled_append, List.length_append, show n = _ from left, show m = _ from right,
          Int64.ofNat_add]
    | _ => contradiction
  | extremum greatest type best =>
    cases other with
    | extremum greatest' type' best' =>
      obtain ⟨rfl, rfl, -⟩ := extremum.inj same
      refine ⟨_, rfl, ?_, rfl⟩
      have decisive := decisive_beats greatest distinguishes.takes
      rw [filled_append, List.map_append] at decisive
      rw [offerExtremum_partialResult right, Reflects, filled_append, List.map_append]
      exact best_append (ranking_beats greatest) decisive left right
    | _ => contradiction
  | valueAt position scan type found =>
    cases other with
    | valueAt position' scan' type' found' =>
      obtain ⟨rfl, rfl, rfl, -⟩ := valueAt.inj same
      refine ⟨_, addPartial_partialResult_valueAt right found, ?_, rfl⟩
      have decisive := decisive_valueAt position (distinguishes.apart rfl)
      rw [filled_append] at decisive
      rw [Reflects, filled_append]
      exact best_append (ranking_valueAt position) decisive left right
    | _ => contradiction
  | timeAt position scan found =>
    cases other with
    | timeAt position' scan' found' =>
      obtain ⟨rfl, rfl, -⟩ := timeAt.inj same
      refine ⟨_, addPartial_partialResult_timeAt position scan found' found, ?_, rfl⟩
      rw [Reflects, filled_append, List.map_append]
      exact best_append position.ranking (decisive_prefers position _) left right
    | _ => contradiction

/-- Two accumulators of one kind that reflect the same rows are the same. -/
theorem eq_of_reflects (left : acc.Reflects rows) (right : other.Reflects more)
    (same : acc.reset = other.reset) (distinguishes : acc.Distinguishes rows)
    (perm : rows.Perm more) : acc = other := by
  have filledPerm : (filled rows).Perm (filled more) := perm.filter _
  cases acc with
  | sum | avg | extreme => exact left.elim
  | count n =>
    cases other with
    | count m =>
      rw [show n = _ from left, show m = _ from right, filledPerm.length_eq]
    | _ => contradiction
  | extremum greatest type best =>
    cases other with
    | extremum greatest' type' best' =>
      obtain ⟨rfl, rfl, -⟩ := extremum.inj same
      rw [Best.unique (decisive_beats greatest distinguishes.takes)
        (fun s => (filledPerm.map _).mem_iff) left right]
    | _ => contradiction
  | valueAt position scan type found =>
    cases other with
    | valueAt position' scan' type' found' =>
      obtain ⟨rfl, rfl, rfl, -⟩ := valueAt.inj same
      rw [Best.unique (decisive_valueAt position (distinguishes.apart rfl))
        (fun x => filledPerm.mem_iff) left right]
    | _ => contradiction
  | timeAt position scan found =>
    cases other with
    | timeAt position' scan' found' =>
      obtain ⟨rfl, rfl, -⟩ := timeAt.inj same
      rw [Best.unique (decisive_prefers position _) (fun t => (filledPerm.map _).mem_iff)
        left right]
    | _ => contradiction

end Accumulator
end WindowFold
