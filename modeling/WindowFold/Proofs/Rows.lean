import Mathlib
import WindowFold.Block.Slicing

/-! Blocks read row by row. A cut of a block is a cut of its rows, and a column
is what the rows hold in one place. -/
namespace WindowFold

/-- A time, and the cells after the time column. -/
structure Row where
  time : Timestamp
  values : List Scalar
  deriving DecidableEq

namespace Row

/-- The cell in a column; the first column holds the time. -/
def cell (r : Row) : Nat → Scalar
  | 0 => .int64 r.time
  | c + 1 => r.values.getD c (.null .int64)

def types (r : Row) : List ScalarType := .int64 :: r.values.map (·.type)

theorem cell_type (r : Row) (c : Nat) (bound : c < r.types.length) :
    (r.cell c).type = r.types[c] := by
  cases c with
  | zero => rfl
  | succ c =>
    have inside : c < r.values.length := by simpa [types] using bound
    simp [cell, types, List.getD_eq_getElem?_getD, inside]

end Row

namespace Block

def rows (b : Block) : List Row :=
  b.times.mapIdx fun i t => ⟨t, b.series.filterMap (·.column.scalar? i)⟩

theorem getElem?_rows (b : Block) (i : Nat) :
    b.rows[i]? = b.times[i]?.map fun t => ⟨t, b.series.filterMap (·.column.scalar? i)⟩ := by
  simp [rows]

@[simp] theorem length_rows (b : Block) : b.rows.length = b.times.length := by simp [rows]

theorem rowCount_eq (b : Block) : b.rowCount = b.rows.length := (length_rows b).symm

@[simp] theorem map_time_rows (b : Block) : b.rows.map (·.time) = b.times := by
  apply List.ext_getElem?
  intro i
  rw [List.getElem?_map, getElem?_rows, Option.map_map]
  cases b.times[i]? <;> rfl

theorem isEmpty_iff (b : Block) : b.isEmpty = true ↔ b.rows = [] := by
  rw [isEmpty, List.isEmpty_iff, ← map_time_rows, List.map_eq_nil_iff]

theorem startTime_eq (b : Block) : b.startTime? = b.rows.head?.map (·.time) := by
  rw [startTime?, ← map_time_rows, List.head?_map]

@[simp] theorem schema_extract (b : Block) (start count : Nat) :
    (b.extract start count).schema = b.schema := by
  simp [schema, extract, Series.field, Series.extract, Column.extract, Function.comp_def]

theorem columnCount_eq (b : Block) : b.columnCount = b.schema.length := by
  simp [columnCount, schema]

theorem rows_extract (b : Block) (start count : Nat) :
    (b.extract start count).rows = (b.rows.drop start).take count := by
  apply List.ext_getElem?
  intro i
  rw [getElem?_rows, List.getElem?_take]
  by_cases within : i < count
  · simp only [extract, List.getElem?_take, within, if_true, List.getElem?_drop, getElem?_rows,
      List.filterMap_map]
    congr 1
    funext t
    congr 2
    funext s
    simp [Series.extract, Column.extract, Column.scalar?, within, List.getElem?_drop]
  · simp [extract, within]

@[simp] theorem rows_sliceFrom (b : Block) (start : Nat) :
    (b.sliceFrom start).rows = b.rows.drop start := by
  rw [sliceFrom, rows_extract, List.take_of_length_le]
  simp [rowCount]

@[simp] theorem schema_sliceFrom (b : Block) (start : Nat) :
    (b.sliceFrom start).schema = b.schema := schema_extract b _ _

private theorem scalars_at (b : Block) (s : Series) (member : s ∈ b.series) (i : Nat)
    (bound : i < b.times.length) : ∃ scalar, s.column.scalar? i = some scalar := by
  have inside : i < s.column.cells.length := by
    have same := b.aligned s member
    rw [Column.length] at same
    omega
  exact ⟨_, by rw [Column.scalar?, List.getElem?_eq_getElem inside, Option.map_some]⟩

private theorem getElem?_filterMap {α β : Type} (f : α → Option β) (l : List α)
    (total : ∀ x ∈ l, ∃ y, f x = some y) (c : Nat) : (l.filterMap f)[c]? = l[c]?.bind f := by
  induction l generalizing c with
  | nil => rfl
  | cons x rest ih =>
    obtain ⟨y, found⟩ := total x List.mem_cons_self
    rw [List.filterMap_cons_some found]
    cases c with
    | zero => simp [found]
    | succ c => simpa using ih (fun z member => total z (List.mem_cons_of_mem _ member)) c

/-- Every series has a cell in every row, so no place of a row is left out. -/
theorem values_getElem? (b : Block) (i c : Nat) (bound : i < b.times.length) :
    (b.series.filterMap (·.column.scalar? i))[c]? = b.series[c]?.bind (·.column.scalar? i) :=
  getElem?_filterMap _ _ (fun s member => scalars_at b s member i bound) c

theorem row_types (b : Block) (r : Row) (member : r ∈ b.rows) : r.types = b.schema.types := by
  obtain ⟨i, found⟩ := List.mem_iff_getElem?.1 member
  rw [getElem?_rows, Option.map_eq_some_iff] at found
  obtain ⟨t, place, rfl⟩ := found
  have bound : i < b.times.length := (List.getElem?_eq_some_iff.1 place).1
  simp only [Row.types, schema, Schema.types, List.map_cons, List.map_map, List.cons.injEq,
    true_and]
  apply List.ext_getElem?
  intro c
  rw [List.getElem?_map, values_getElem? b i c bound, List.getElem?_map]
  cases at_c : b.series[c]? with
  | none => rfl
  | some s =>
    obtain ⟨scalar, cell⟩ := scalars_at b s (List.mem_of_getElem? at_c) i bound
    have type : scalar.type = s.column.type := by
      rw [Column.scalar?, Option.map_eq_some_iff] at cell
      obtain ⟨_, _, rfl⟩ := cell
      rfl
    simp [cell, type, Series.field]

theorem column?_eq (b : Block) (c : Nat) (bound : c < b.schema.length) :
    ∃ column, b.column? c = some column ∧ column.type = b.schema[c].type ∧
      column.scalars = b.rows.map (·.cell c) := by
  cases c with
  | zero =>
    refine ⟨.ofTimes b.times, rfl, rfl, ?_⟩
    simp only [Column.scalars, Column.ofTimes, ← map_time_rows, List.map_map]
    rfl
  | succ c =>
    have inside : c < b.series.length := by simpa [schema] using bound
    refine ⟨b.series[c].column, by simp [column?, columns, inside],
      by simp [schema, Series.field], ?_⟩
    apply List.ext_getElem?
    intro i
    rw [List.getElem?_map, getElem?_rows, Column.scalars, List.getElem?_map, Option.map_map]
    by_cases row : i < b.times.length
    · have same := values_getElem? b i c row
      rw [List.getElem?_eq_getElem inside, Option.bind_some, Column.scalar?] at same
      obtain ⟨scalar, cell⟩ := scalars_at b b.series[c] (List.getElem_mem inside) i row
      rw [Column.scalar?] at cell
      rw [cell] at same ⊢
      simp [row, Row.cell, List.getD_eq_getElem?_getD, same]
    · have short : b.series[c].column.cells.length ≤ i := by
        have same := b.aligned _ (List.getElem_mem inside)
        rw [Column.length] at same
        omega
      simp [row, short]

end Block
end WindowFold
