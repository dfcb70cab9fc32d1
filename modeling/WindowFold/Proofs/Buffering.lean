import WindowFold.Proofs.Rows
import WindowFold.RowBuffer

/-! A row buffer holds rows and gives them back. The block that it builds has
exactly the rows that were added, and the buffer is empty again. -/
namespace WindowFold

theorem Column.scalar?_eq (c : Column) (i : Nat) : c.scalar? i = c.scalars[i]? := by
  simp [scalar?, scalars]

theorem Row.cells_eq (r : Row) :
    (List.range r.values.length).map (fun c => r.cell (c + 1)) = r.values := by
  apply List.ext_getElem
  · simp
  · intro i inside _
    have bound : i < r.values.length := by simpa using inside
    simp [cell, List.getD_eq_getElem?_getD, bound]

namespace RowBuffer

/-- The cells of one column of rows after the other, without the time column. -/
def transposed (width : Nat) (rows : List Row) : List (List Scalar) :=
  (List.range width).map fun c => rows.map (·.cell (c + 1))

/-- The buffer holds the rows, all with the types of its schema, and it has room
for a row if it holds none. -/
structure Holds (b : RowBuffer) (schema : Schema) (rows : List Row) : Prop where
  schema_eq : b.schema = schema
  roomForRows : 1 ≤ b.maxRows
  roomForBytes : 1 ≤ b.maxBytes
  times : b.times = rows.map (·.time)
  columns : b.columns = transposed schema.tail.length rows
  typed : ∀ r ∈ rows, r.values.map (·.type) = Schema.types schema.tail
  bytes : rows = [] → b.bytes = 0

variable {b : RowBuffer} {schema : Schema} {rows : List Row}

/-- A row more is a cell more in each column. -/
theorem transposed_concat {width : Nat} (rows : List Row) (r : Row)
    (same : r.values.length = width) :
    ((transposed width rows).zip r.values).map (fun (column, value) => column ++ [value]) =
      transposed width (rows ++ [r]) := by
  have zipped : (transposed width rows).zip r.values =
      (List.range width).map fun c => (rows.map (·.cell (c + 1)), r.cell (c + 1)) := by
    conv_lhs => arg 2; rw [← r.cells_eq]
    rw [transposed, same, List.zip_map']
  rw [zipped, List.map_map, transposed]
  refine List.map_congr_left fun c _ => ?_
  rw [List.map_append]
  rfl

theorem holds_create (schema : Schema) (limits : Limits) :
    (create schema limits).Holds schema [] where
  schema_eq := rfl
  roomForRows := Nat.le_max_right _ _
  roomForBytes := Nat.le_max_right _ _
  times := rfl
  columns := by simp [create, transposed, List.map_const']
  typed := by simp
  bytes _ := rfl

theorem Holds.clear (holds : b.Holds schema rows) : b.clear.Holds schema [] where
  schema_eq := holds.schema_eq
  roomForRows := holds.roomForRows
  roomForBytes := holds.roomForBytes
  times := rfl
  columns := by
    simp only [RowBuffer.clear, holds.columns, transposed, List.map_map]
    rfl
  typed := by simp
  bytes _ := rfl

theorem Holds.isEmpty_eq (holds : b.Holds schema rows) : b.isEmpty = rows.isEmpty := by
  rw [isEmpty, holds.times, List.isEmpty_map]

theorem Holds.not_full (holds : b.Holds schema []) : b.isFull = false := by
  have rows := holds.roomForRows
  have bytes := holds.roomForBytes
  simp only [isFull, rowCount, holds.times, holds.bytes rfl, List.map_nil, List.length_nil,
    Bool.or_eq_false_iff, decide_eq_false_iff_not]
  omega

theorem Holds.append (holds : b.Holds schema rows) (time : Timestamp) {values : List Scalar}
    (typed : values.map (·.type) = Schema.types schema.tail) :
    ∃ c, b.append time values = .ok c ∧ c.Holds schema (rows ++ [⟨time, values⟩]) := by
  have width : values.length = schema.tail.length := by
    simpa [Schema.types] using congrArg List.length typed
  have columns : b.columns.length = schema.tail.length := by
    rw [holds.columns, transposed, List.length_map, List.length_range]
  unfold RowBuffer.append
  rw [if_neg (by omega)]
  refine ⟨_, rfl, holds.schema_eq, holds.roomForRows, holds.roomForBytes, ?_, ?_, ?_, by simp⟩
  · simp [holds.times]
  · change (b.columns.zip values).map _ = _
    rw [holds.columns]
    exact transposed_concat rows ⟨time, values⟩ width
  · intro r member
    rcases List.mem_append.1 member with held | new
    · exact holds.typed r held
    · rw [List.mem_singleton.1 new]
      exact typed

theorem column_eq {type : ScalarType} {scalars : List Scalar}
    (typed : ∀ s ∈ scalars, s.type = type) :
    ∃ c, column type scalars = .ok c ∧ c.type = type ∧ c.scalars = scalars := by
  have read : ∀ scalars : List Scalar, (∀ s ∈ scalars, s.type = type) →
      ∃ cells, scalars.mapM (fun s => s.valueAs? type) = some cells ∧
        (Column.mk type cells).scalars = scalars := by
    intro scalars typed
    induction scalars with
    | nil => exact ⟨[], rfl, rfl⟩
    | cons s rest ih =>
      obtain ⟨cells, found, same⟩ := ih fun t member => typed t (List.mem_cons_of_mem _ member)
      obtain ⟨sort, value⟩ := s
      obtain rfl : sort = type := typed ⟨sort, value⟩ List.mem_cons_self
      refine ⟨value :: cells, ?_, ?_⟩
      · rw [List.mapM_cons, found]
        simp [Scalar.valueAs?]
      · simpa [Column.scalars] using same
  cases scalars with
  | nil => exact ⟨⟨type, []⟩, rfl, rfl, rfl⟩
  | cons s rest =>
    obtain ⟨cells, found, same⟩ := read (s :: rest) typed
    obtain rfl : s.type = type := typed s List.mem_cons_self
    refine ⟨⟨s.type, cells⟩, ?_, rfl, same⟩
    simp only [column, Column.ofScalars?, found, Option.map_some, Column.cast, if_true]

theorem drain_eq {fields : Schema} {columns : List (List Scalar)}
    (typed : List.Forall₂ (fun f scalars => ∀ s ∈ scalars, s.type = f.type) fields columns) :
    ∃ made, drain fields columns = (.ok made, columns.map fun _ => []) ∧
      made.map (·.type) = fields.types ∧ made.map (·.scalars) = columns := by
  induction typed with
  | nil => exact ⟨[], rfl, rfl, rfl⟩
  | @cons field scalars fields columns fits _ ih =>
    obtain ⟨made, drained, types, same⟩ := ih
    obtain ⟨c, turned, type, cells⟩ := column_eq fits
    refine ⟨c :: made, ?_, ?_, ?_⟩
    · simp [drain, turned, drained, Except.map]
    · simp only [List.map_cons, type, types, Schema.types]
    · simp [cells, same]

theorem forall₂_transposed {fields : Schema}
    (typed : ∀ r ∈ rows, r.values.map (·.type) = fields.types) :
    List.Forall₂ (fun f scalars => ∀ s ∈ scalars, s.type = f.type) fields
      (transposed fields.length rows) := by
  rw [List.forall₂_iff_get]
  refine ⟨by simp [transposed], fun i inside _ s member => ?_⟩
  simp only [transposed, List.get_eq_getElem, List.getElem_map, List.getElem_range] at member
  obtain ⟨r, held, rfl⟩ := List.mem_map.1 member
  have types := typed r held
  have bound : i < r.values.length := by
    have := congrArg List.length types
    simp only [List.length_map, Schema.types] at this
    omega
  have type : (r.values.map (·.type))[i]? = fields.types[i]? := by rw [types]
  simpa [Row.cell, List.getD_eq_getElem?_getD, bound, inside, Schema.types] using type

end RowBuffer

/-- Columns that fit a schema of nullable fields after the time make a block. -/
theorem Block.ofColumns_eq {fields : Schema} (nullable : ∀ f ∈ fields, f.nullable = true)
    {times : List Timestamp} {made : List Column}
    (types : made.map (·.type) = fields.types) (lengths : ∀ c ∈ made, c.length = times.length) :
    ∃ block, Block.ofColumns (timeField :: fields) (Column.ofTimes times :: made) none = .ok block ∧
      block.schema = timeField :: fields ∧ block.times = times ∧
      block.series.map (·.column) = made := by
  have width : made.length = fields.length := by
    simpa [Schema.types] using congrArg List.length types
  have sort : ∀ i (inside : i < fields.length), made[i].type = fields[i].type := by
    intro i inside
    have same := congrArg (·[i]?) types
    simpa [Schema.types, inside, width] using same
  have fit : fits (timeField :: fields) (Column.ofTimes times :: made) times.length = true := by
    simp only [fits, List.length_cons, width, decide_true, Bool.true_and, List.zip_cons_cons,
      List.all_cons, Bool.and_eq_true, List.all_eq_true]
    refine ⟨by simp [timeField, Column.ofTimes, Column.length, Column.nullCount],
      fun p member => ?_⟩
    obtain ⟨i, inside, rfl⟩ := List.mem_iff_getElem.1 member
    rw [List.length_zip, width, min_self] at inside
    simp [sort i inside, lengths _ (List.getElem_mem _), nullable _ (List.getElem_mem _)]
  let series := (fields.zip made).map fun p => Series.mk p.1.name p.1.nullable p.2
  have columns : series.map (·.column) = made := by
    rw [List.map_map]
    exact List.map_snd_zip (by omega)
  have aligned : ∀ s ∈ series, s.column.length = times.length := fun s member =>
    lengths _ (columns ▸ List.mem_map_of_mem member)
  refine ⟨⟨timeColumn, false, times, series, aligned⟩, ?_, ?_, rfl, columns⟩
  · have cells : (times.map some).filterMap id = times := by simp [List.filterMap_map]
    simp only [ofColumns, List.head?_cons, Option.map_some, Option.getD_some, Option.getD_none]
    rw [if_neg (by simpa [Column.ofTimes, Column.length] using fit)]
    simp only [Column.ofTimes, cells, List.length_map, ne_eq, not_true_eq_false, if_false,
      timeField]
    exact dif_pos aligned
  · refine congrArg (timeField :: ·)
      (List.ext_getElem (by simp [series, width]) fun i inside _ => ?_)
    have bound : i < fields.length := by simpa [series, width] using inside
    simp [series, Series.field, sort i bound]

/-- The rows held come out as one block, and the buffer is left empty. -/
theorem RowBuffer.Holds.build {b : RowBuffer} {fields : Schema} {rows : List Row}
    (nullable : ∀ f ∈ fields, f.nullable = true)
    (holds : b.Holds (Block.timeField :: fields) rows) :
    ∃ block c, b.build = (.ok block, c) ∧ block.rows = rows ∧
      block.schema = Block.timeField :: fields ∧ c.Holds (Block.timeField :: fields) [] := by
  obtain ⟨made, drained, types, scalars⟩ := drain_eq (forall₂_transposed holds.typed)
  rw [List.tail_cons] at drained types scalars
  have lengths : ∀ c ∈ made, c.length = b.times.length := by
    intro c member
    have column : c.scalars ∈ transposed fields.length rows := scalars ▸ List.mem_map_of_mem member
    obtain ⟨i, _, same⟩ := List.mem_map.1 column
    have := congrArg List.length same
    simpa [Column.scalars, Column.length, holds.times] using this.symm
  obtain ⟨block, built, schema, times, columns⟩ := Block.ofColumns_eq nullable types lengths
  have drained : drain b.schema.tail b.columns = (.ok made, b.columns.map fun _ => []) := by
    rw [holds.schema_eq, holds.columns]
    exact drained
  refine ⟨block, b.clear, ?_, ?_, schema, holds.clear⟩
  · rw [RowBuffer.build, drained]
    change (Block.ofColumns b.schema (Column.ofTimes b.times :: made) none, b.clear) = _
    rw [holds.schema_eq, built]
  · apply List.ext_getElem?
    intro i
    rw [Block.getElem?_rows, times, holds.times, List.getElem?_map, Option.map_map]
    cases found : rows[i]? with
    | none => rfl
    | some r =>
      have width : r.values.length = fields.length := by
        simpa [Schema.types] using congrArg List.length (holds.typed r (List.mem_of_getElem? found))
      have read : block.series.filterMap (·.column.scalar? i) =
          (block.series.map (·.column.scalars)).filterMap (·[i]?) := by
        rw [List.filterMap_map]
        exact List.filterMap_congr fun s _ => Column.scalar?_eq s.column i
      have cells : (transposed fields.length rows).filterMap (·[i]?) = r.values := by
        rw [transposed, List.filterMap_map, ← Row.cells_eq r, width, ← List.filterMap_eq_map]
        exact List.filterMap_congr fun c _ => by simp [found]
      have all : block.series.map (·.column.scalars) = transposed fields.length rows := by
        rw [← scalars, ← columns, List.map_map]
        rfl
      simp only [Option.map_some, Function.comp_apply, read, all, cells]

end WindowFold
