import WindowFold.Aggregation.Accumulator
import WindowFold.Proofs.Choice
import WindowFold.Proofs.Cuts

/-! Accumulators row by row. Giving one the rows of a column at once comes to
the same as giving it the rows one after the other, so it does not matter how
rows in scan order are cut into columns. Sums go by lanes of a whole column and
are left out. -/
namespace WindowFold

/-- The value as a float; zero if there is none. -/
def Scalar.size (s : Scalar) : Binary64 := (s.value.bind (s.type.convert .float64)).getD .zero

namespace Accumulator

/-- It takes in rows one by one, each on its own. -/
def byRow : Accumulator → Bool
  | sum _ | avg _ _ => false
  | _ => true

/-- It compares values by size, so they have to be numbers. -/
def bySize : Accumulator → Bool
  | extreme _ _ => true
  | _ => false

/-- One more row; a row without a value changes nothing. -/
def absorb (acc : Accumulator) (row : Timestamp × Scalar) : Accumulator :=
  if row.2.isNull || acc.isSettled then acc
  else
    match acc with
    | count rows => count (rows + 1)
    | sum total => sum total
    | avg rows total => avg rows total
    | extremum greatest type best => extremum greatest type (offerExtremum greatest best row.2)
    | extreme type best => extreme type (offerExtreme best row.2.size row.2)
    | valueAt position scan type found =>
      valueAt position scan type (offerValue position found row.1 row.2)
    | timeAt position scan found => timeAt position scan (offerTime position found row.1)

def absorbAll (acc : Accumulator) (rows : List (Timestamp × Scalar)) : Accumulator :=
  rows.foldl absorb acc

variable {acc : Accumulator} {rows : List (Timestamp × Scalar)}

@[simp] theorem absorbAll_cons (row : Timestamp × Scalar) :
    acc.absorbAll (row :: rows) = (acc.absorb row).absorbAll rows := rfl

theorem absorbAll_append (later : List (Timestamp × Scalar)) :
    acc.absorbAll (rows ++ later) = (acc.absorbAll rows).absorbAll later := List.foldl_append

theorem absorb_null (row : Timestamp × Scalar) (null : row.2.isNull = true) :
    acc.absorb row = acc := by simp [absorb, null]

/-- Saturation: a settled accumulator stays as it is. -/
theorem absorbAll_settled (settled : acc.isSettled = true) : acc.absorbAll rows = acc := by
  induction rows with
  | nil => rfl
  | cons row rest ih => rw [absorbAll_cons, show acc.absorb row = acc by simp [absorb, settled], ih]

@[simp] theorem reset_absorb (row : Timestamp × Scalar) : (acc.absorb row).reset = acc.reset := by
  unfold absorb
  split
  · rfl
  · cases acc <;> rfl

@[simp] theorem reset_absorbAll : (acc.absorbAll rows).reset = acc.reset := by
  induction rows generalizing acc with
  | nil => rfl
  | cons row rest ih => rw [absorbAll_cons, ih, reset_absorb]

@[simp] theorem reset_reset (acc : Accumulator) : acc.reset.reset = acc.reset := by
  cases acc <;> rfl

@[simp] theorem byRow_reset (acc : Accumulator) : acc.reset.byRow = acc.byRow := by
  cases acc <;> rfl

@[simp] theorem bySize_reset (acc : Accumulator) : acc.reset.bySize = acc.bySize := by
  cases acc <;> rfl

/-- The rows with a value. -/
def filled (rows : List (Timestamp × Scalar)) : List (Timestamp × Scalar) :=
  rows.filter (!·.2.isNull)

theorem filled_full : ∀ row ∈ filled rows, row.2.isNull = false := fun row member => by
  simpa using (List.mem_filter.1 member).2

theorem absorbAll_filled : acc.absorbAll (filled rows) = acc.absorbAll rows := by
  unfold filled
  induction rows generalizing acc with
  | nil => rfl
  | cons row rest ih =>
    by_cases null : row.2.isNull = true
    · rw [List.filter_cons_of_neg (by simp [null]), absorbAll_cons, absorb_null row null, ih]
    · rw [List.filter_cons_of_pos (by simp [null]), absorbAll_cons, absorbAll_cons, ih]

end Accumulator

namespace Position

theorem ranking (position : Position) : Ranking position.prefers where
  irreflexive t := by cases position <;> simp [prefers]
  transitive t u v := by
    cases position <;> simp only [prefers, decide_eq_true_eq, Timestamp] <;> omega

/-- A scan that does not lead to the wanted end comes nearer to it row by row. -/
theorem prefers_of_inOrder {position : Position} {scan : Scan} (leads : position.leads scan = false)
    {t u : Timestamp} (order : scan.inOrder t u = true) : position.prefers u t = true ∨ u = t := by
  cases position <;> cases scan <;> first
    | contradiction
    | simp only [prefers, Scan.inOrder, decide_eq_true_eq, Timestamp] at order ⊢
      omega

theorem not_prefers_of_inOrder {position : Position} {scan : Scan}
    (leads : position.leads scan = true) {t u : Timestamp} (order : scan.inOrder t u = true) :
    position.prefers u t = false := by
  cases position <;> cases scan <;> first
    | contradiction
    | simp only [prefers, Scan.inOrder, decide_eq_true_eq, decide_eq_false_iff_not,
        Timestamp] at order ⊢
      omega

end Position

namespace Accumulator

/-- The first value takes the place of the second where that is kept. -/
def beats (greatest : Bool) (s t : Scalar) : Bool := if greatest then t.less s else s.less t

/-- The first size takes the place of the second where that is kept. -/
def outweighs (x y : Binary64 × Scalar) : Bool :=
  x.1.abs.exceeds y.1.abs || (x.1.abs.equals y.1.abs && x.1.exceeds y.1)

theorem offerExtremum_eq (greatest : Bool) (best : Option Scalar) (candidate : Scalar) :
    offerExtremum greatest best candidate =
      if candidate.isNull then best else choose (beats greatest) best candidate := by
  cases best <;> rfl

theorem offerExtreme_eq (best : Option (Binary64 × Scalar)) (size : Binary64) (candidate : Scalar) :
    offerExtreme best size candidate = choose outweighs best (size, candidate) := by
  cases best <;> rfl

theorem offerTime_eq (position : Position) : offerTime position = choose position.prefers := by
  funext found time
  cases found <;> rfl

theorem offerValue_eq (position : Position) (found : Option (Timestamp × Scalar))
    (row : Timestamp × Scalar) : offerValue position found row.1 row.2 =
      choose (fun x y => position.prefers x.1 y.1) found row := by
  cases found <;> rfl

theorem pickTimed_eq (position : Position) (scan : Scan) {times : List Timestamp} {values : Column}
    (same : times.length = values.scalars.length) :
    pickTimed position scan times values =
      .ok (if position.leads scan then (filled (times.zip values.scalars)).head?
        else (filled (times.zip values.scalars)).getLast?) := by
  have timed : filled (times.zip values.scalars) =
      (values.scalars.zipIdx.filter (!·.1.isNull)).map fun p => (times.getD p.2 0, p.1) := by
    have whole : times.zip values.scalars =
        values.scalars.zipIdx.map fun p => (times.getD p.2 0, p.1) := by
      apply List.ext_getElem?
      intro i
      by_cases bound : i < times.length
      · simp [bound, same ▸ bound, List.getD_eq_getElem?_getD]
      · simp [bound, same ▸ bound]
    rw [filled, whole, List.filter_map]
    rfl
  have picked : pickRow position scan values =
      (if position.leads scan then (values.scalars.zipIdx.filter (!·.1.isNull)).head?
        else (values.scalars.zipIdx.filter (!·.1.isNull)).getLast?).map fun p => (p.2, p.1) := rfl
  have place : ∀ p ∈ values.scalars.zipIdx.filter (!·.1.isNull),
      times[p.2]? = some (times.getD p.2 0) := by
    intro p member
    have bound : p.2 < times.length := by
      have := List.snd_lt_of_mem_zipIdx (List.mem_of_mem_filter member)
      omega
    rw [List.getD_eq_getElem?_getD, List.getElem?_eq_getElem bound, Option.getD_some]
  rw [pickTimed, picked, timed, List.head?_map, List.getLast?_map]
  generalize values.scalars.zipIdx.filter (!·.1.isNull) = found at place
  cases position.leads scan with
  | true =>
    cases first : found.head? with
    | none => rfl
    | some p => simp only [if_true, Option.map_some, place p (List.mem_of_head? first)]
  | false =>
    cases last : found.getLast? with
    | none => rfl
    | some p =>
      simp only [Bool.false_eq_true, if_false, Option.map_some, place p (List.mem_of_getLast? last)]

/-- What must hold of rows for it not to matter how they are cut. Of several
rows at one time the last counts if they come at once and the first if not, so
where a value is found by its place no two rows may share a time. -/
def Separable (acc : Accumulator) (rows : List (Timestamp × Scalar)) : Prop :=
  match acc with
  | valueAt _ scan _ _ =>
    rows.Pairwise fun x y => scan.inOrder x.1 y.1 = true ∧ x.1 ≠ y.1
  | timeAt _ scan _ => rows.Pairwise fun x y => scan.inOrder x.1 y.1 = true
  | _ => True

@[simp] theorem separable_reset {acc : Accumulator} {rows : List (Timestamp × Scalar)} :
    acc.reset.Separable rows ↔ acc.Separable rows := by
  cases acc <;> rfl

theorem absorbAll_count (n : Int64) :
    (count n).absorbAll rows = count (n + .ofNat (rows.countP (!·.2.isNull))) := by
  induction rows generalizing n with
  | nil => exact congrArg count (Int64.add_zero n).symm
  | cons row rest ih =>
    rw [absorbAll_cons, List.countP_cons]
    cases null : row.2.isNull with
    | true => rw [absorb_null row null, ih]; simp
    | false =>
      have more : (count n).absorb row = count (n + 1) := by simp [absorb, null, isSettled]
      rw [more, ih, Int64.add_assoc, Int64.add_comm 1, Bool.not_false, if_pos rfl,
        Int64.ofNat_add]
      rfl

/-- What a row does to what is kept, all of them do in turn. -/
theorem absorbAll_eq_foldl {κ : Type} (keeping : κ → Accumulator)
    {change : κ → Timestamp × Scalar → κ}
    (one : ∀ row ∈ rows, ∀ kept, (keeping kept).absorb row = keeping (change kept row)) (kept : κ) :
    (keeping kept).absorbAll rows = keeping (rows.foldl change kept) := by
  induction rows generalizing kept with
  | nil => rfl
  | cons row rest ih =>
    obtain ⟨first, later⟩ := List.forall_mem_cons.1 one
    rw [absorbAll_cons, first, ih later, List.foldl_cons]

theorem absorbAll_extremum (greatest : Bool) (type : ScalarType) (best : Option Scalar) :
    (extremum greatest type best).absorbAll rows =
      extremum greatest type ((rows.map (·.2)).foldl (offerExtremum greatest) best) := by
  rw [List.foldl_map]
  apply absorbAll_eq_foldl (extremum greatest type)
  intro row _ best
  cases null : row.2.isNull <;> simp [absorb, null, isSettled, offerExtremum]

theorem absorbAll_extreme (type : ScalarType) (best : Option (Binary64 × Scalar)) :
    (extreme type best).absorbAll rows = extreme type ((rows.map (·.2)).foldl
      (fun best s => if s.isNull then best else offerExtreme best s.size s) best) := by
  rw [List.foldl_map]
  apply absorbAll_eq_foldl (extreme type)
  intro row _ best
  cases null : row.2.isNull <;> simp [absorb, null, isSettled]

/-- The scan does not lead to the wanted end, so no row settles the result. -/
theorem absorbAll_valueAt {position : Position} {scan : Scan}
    (leads : position.leads scan = false) (type : ScalarType) (found : Option (Timestamp × Scalar))
    (full : ∀ row ∈ rows, row.2.isNull = false) :
    (valueAt position scan type found).absorbAll rows = valueAt position scan type
      (rows.foldl (choose fun x y => position.prefers x.1 y.1) found) := by
  apply absorbAll_eq_foldl (valueAt position scan type)
  intro row member found
  rw [← offerValue_eq]
  simp [absorb, full row member, isSettled, leads]

/-- The scan leads to the wanted end, so the first row settles the result. -/
theorem absorbAll_valueAt_leading {position : Position} {scan : Scan}
    (leads : position.leads scan = true) (type : ScalarType)
    (full : ∀ row ∈ rows, row.2.isNull = false) :
    (valueAt position scan type none).absorbAll rows =
      valueAt position scan type rows.head? := by
  cases rows with
  | nil => rfl
  | cons row rest =>
    have first : (valueAt position scan type none).absorb row =
        valueAt position scan type (some row) := by
      simp [absorb, full row List.mem_cons_self, isSettled, offerValue]
    rw [absorbAll_cons, first, absorbAll_settled (by simp [isSettled, leads])]
    rfl

theorem absorbAll_timeAt_leading {position : Position} {scan : Scan}
    (leads : position.leads scan = true) (full : ∀ row ∈ rows, row.2.isNull = false) :
    (timeAt position scan none).absorbAll rows =
      timeAt position scan (rows.head?.map (·.1)) := by
  cases rows with
  | nil => rfl
  | cons row rest =>
    have first : (timeAt position scan none).absorb row = timeAt position scan (some row.1) := by
      simp [absorb, full row List.mem_cons_self, isSettled, offerTime]
    rw [absorbAll_cons, first, absorbAll_settled (by simp [isSettled, leads])]
    rfl

theorem absorbAll_timeAt {position : Position} {scan : Scan}
    (leads : position.leads scan = false) (found : Option Timestamp)
    (full : ∀ row ∈ rows, row.2.isNull = false) :
    (timeAt position scan found).absorbAll rows =
      timeAt position scan ((rows.map (·.1)).foldl (choose position.prefers) found) := by
  rw [List.foldl_map]
  apply absorbAll_eq_foldl (timeAt position scan)
  intro row member found
  rw [← offerTime_eq]
  simp [absorb, full row member, isSettled, leads]

end Accumulator

theorem ScalarType.convertCells_numeric {type : ScalarType} (numeric : type.isNumeric = true)
    (cells : List (Option type.Value)) :
    type.convertCells .float64 cells = .ok (cells.map (·.bind (type.convert .float64))) := by
  have converts : type.convertsTo .float64 = true := by cases type <;> first | rfl | contradiction
  have one : ∀ cell, type.convertCell .float64 cell = .ok (cell.bind (type.convert .float64)) := by
    intro cell
    cases cell with
    | none => rfl
    | some x =>
      rw [convertCell, Option.bind_some]
      cases type.convert .float64 x with
      | some y => rfl
      | none => simp
  rw [convertCells, if_pos converts]
  induction cells with
  | nil => rfl
  | cons cell rest ih => rw [List.mapM_cons, ih, one]; rfl

namespace Accumulator
variable {acc : Accumulator}

theorem addRows_count (n : Int64) {times : List Timestamp} {values : Column}
    (same : times.length = values.scalars.length) :
    (count n).addRows times values = .ok ((count n).absorbAll (times.zip values.scalars)) := by
  have counted : (times.zip values.scalars).countP (!·.2.isNull) =
      values.scalars.countP (!·.isNull) := by
    conv_rhs => rw [← (List.map_snd_zip (by omega) : (times.zip values.scalars).map Prod.snd = _)]
    rw [List.countP_map]
    rfl
  have cells : values.scalars.countP (!·.isNull) + values.nullCount = values.length := by
    rw [Column.scalars, List.countP_map, Column.nullCount, Column.length,
      List.length_eq_countP_add_countP (fun c => !c.isNone)]
    congr 2
    funext c
    cases c <;> rfl
  rw [addRows, absorbAll_count, counted, ← cells, Int.natCast_add, Int.add_sub_cancel,
    Int64.ofInt_eq_ofNat]

theorem addRows_extreme (type : ScalarType) (best : Option (Binary64 × Scalar))
    {times : List Timestamp} {values : Column} (same : times.length = values.scalars.length)
    (numeric : values.type.isNumeric = true) :
    (extreme type best).addRows times values =
      .ok ((extreme type best).absorbAll (times.zip values.scalars)) := by
  have sized : (values.cells.map (·.bind (values.type.convert .float64))).zip values.scalars =
      values.scalars.map fun s => (s.value.bind (s.type.convert .float64), s) := by
    rw [Column.scalars, List.zip_map', List.map_map]
    rfl
  rw [addRows, ScalarType.convertCells_numeric numeric, absorbAll_extreme,
    List.map_snd_zip (by omega)]
  simp only [sized, List.foldl_map]
  rfl

theorem addRows_valueAt (position : Position) (scan : Scan) (type : ScalarType)
    (found : Option (Timestamp × Scalar)) {times : List Timestamp} {values : Column}
    (same : times.length = values.scalars.length)
    (apart : (times.zip values.scalars).Pairwise
      fun x y => scan.inOrder x.1 y.1 = true ∧ x.1 ≠ y.1) :
    (valueAt position scan type found).addRows times values =
      .ok ((valueAt position scan type found).absorbAll (times.zip values.scalars)) := by
  by_cases settled : (valueAt position scan type found).isSettled = true
  · rw [addRows, if_pos settled, absorbAll_settled settled]
  rw [addRows, if_neg settled, pickTimed_eq position scan same, ← absorbAll_filled]
  have apart := apart.filter (!·.2.isNull)
  cases leads : position.leads scan with
  | true =>
    obtain rfl : found = none := by simpa [isSettled, leads] using settled
    rw [absorbAll_valueAt_leading leads type filled_full]
    cases (filled (times.zip values.scalars)).head? <;> rfl
  | false =>
    have rising : (filled (times.zip values.scalars)).Pairwise
        fun x y => position.prefers y.1 x.1 = true ∨ y = x := by
      refine apart.imp fun ⟨order, different⟩ => .inl ?_
      rcases Position.prefers_of_inOrder leads order with above | equal
      · exact above
      · exact absurd equal.symm different
    have ranking : Ranking fun x y : Timestamp × Scalar => position.prefers x.1 y.1 :=
      ⟨fun x => position.ranking.irreflexive x.1,
        fun x y z => position.ranking.transitive x.1 y.1 z.1⟩
    rw [absorbAll_valueAt leads type found filled_full, foldl_choose_rising ranking rising]
    cases (filled (times.zip values.scalars)).getLast? with
    | none => rfl
    | some row => simp [offerValue_eq]

theorem addRows_timeAt (position : Position) (scan : Scan) (found : Option Timestamp)
    {times : List Timestamp} {values : Column} (same : times.length = values.scalars.length)
    (ordered : (times.zip values.scalars).Pairwise fun x y => scan.inOrder x.1 y.1 = true) :
    (timeAt position scan found).addRows times values =
      .ok ((timeAt position scan found).absorbAll (times.zip values.scalars)) := by
  by_cases settled : (timeAt position scan found).isSettled = true
  · rw [addRows, if_pos settled, absorbAll_settled settled]
  rw [addRows, if_neg settled, pickTimed_eq position scan same, ← absorbAll_filled]
  have ordered := ordered.filter (!·.2.isNull)
  cases leads : position.leads scan with
  | true =>
    obtain rfl : found = none := by simpa [isSettled, leads] using settled
    rw [absorbAll_timeAt_leading leads filled_full]
    cases (filled (times.zip values.scalars)).head? <;> rfl
  | false =>
    have rising : ((filled (times.zip values.scalars)).map (·.1)).Pairwise
        fun x y => position.prefers y x = true ∨ y = x :=
      List.pairwise_map.2 (ordered.imp fun order => Position.prefers_of_inOrder leads order)
    rw [absorbAll_timeAt leads found filled_full, foldl_choose_rising position.ranking rising,
      List.getLast?_map]
    cases (filled (times.zip values.scalars)).getLast? with
    | none => rfl
    | some row => simp [offerTime_eq]

/-- The rows of a column at once, or one after the other. -/
theorem addRows_eq (byRow : acc.byRow = true) (times : List Timestamp) (values : Column)
    (same : times.length = values.scalars.length)
    (numeric : acc.bySize = true → values.type.isNumeric = true)
    (separable : acc.Separable (times.zip values.scalars)) :
    acc.addRows times values = .ok (acc.absorbAll (times.zip values.scalars)) := by
  cases acc with
  | count n => exact addRows_count n same
  | sum | avg => contradiction
  | extremum greatest type best =>
    rw [addRows, absorbAll_extremum, List.map_snd_zip (by omega)]
  | extreme type best => exact addRows_extreme type best same (numeric rfl)
  | valueAt position scan type found =>
    exact addRows_valueAt position scan type found same separable
  | timeAt position scan found => exact addRows_timeAt position scan found same separable

end Accumulator
end WindowFold
