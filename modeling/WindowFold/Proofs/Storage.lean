import WindowFold.Proofs.Announcements
import WindowFold.Proofs.PollAnswers
import WindowFold.Proofs.Renewal

/-! What a row buffer stores, within the limits that it is filled under, and the block
that is made of it: the times of the rows, and their cells turned into columns. -/
namespace WindowFold

/-- The bytes that a row is taken to need. -/
def Row.byteSize (r : Row) : Nat := RowBuffer.rowBytes r.values

namespace Limits

/-- There is room for a row after these. A limit of nothing counts as one. -/
structure HasRoom (limits : Limits) (rows : List Row) : Prop where
  count : rows.length < max limits.rows 1
  size : (rows.map (·.byteSize)).sum < max limits.bytes 1

/-- Rows that a block may have: there was room for each of them. -/
structure Admits (limits : Limits) (rows : List Row) : Prop where
  count : rows.length ≤ max limits.rows 1
  size : (rows.dropLast.map (·.byteSize)).sum < max limits.bytes 1

variable {limits : Limits} {rows : List Row}

theorem admits_nil (limits : Limits) : limits.Admits [] := by
  constructor
  · exact Nat.zero_le _
  · exact Nat.lt_of_lt_of_le Nat.one_pos (Nat.le_max_right _ _)

theorem HasRoom.admits (room : limits.HasRoom rows) (r : Row) : limits.Admits (rows ++ [r]) := by
  constructor
  · rw [List.length_append]
    exact room.count
  · rw [List.dropLast_concat]
    exact room.size

end Limits

/-- A block made of rows: it has their times, and each of its columns is what their cells in
that place are turned into. -/
structure Block.Renders (block : Block) (rows : List Row) : Prop where
  times : block.times = rows.map (·.time)
  columns : List.Forall₂ (fun (s : Series) scalars =>
      RowBuffer.column s.column.type scalars = .ok s.column) block.series
    (RowBuffer.transposed block.series.length rows)

namespace Block
variable {schema : Schema} {times : List Timestamp} {made : List Column} {block : Block}

theorem columns_of_ofColumns
    (built : ofColumns schema (Column.ofTimes times :: made) none = .ok block) :
    block.times = times ∧ block.series.map (·.column) = made := by
  have same := (of_ofColumns built).1
  refine ⟨same, ?_⟩
  simp only [ofColumns] at built
  split at built
  · cases built
  next fit =>
  cases schema with
  | nil => cases built
  | cons field fields =>
    rw [Bool.not_eq_true, Bool.or_eq_false_iff, Bool.not_eq_false'] at fit
    have width : made.length ≤ fields.length := by
      have := congrArg List.length (types_of_fits fit.2)
      simp only [List.map_cons, List.length_cons, List.length_map, Schema.types] at this
      omega
    simp only [Column.ofTimes] at built
    split at built
    · cases built
    split at built
    · cases built
      rw [List.map_map]
      exact List.map_snd_zip width
    · cases built

end Block

namespace RowBuffer

/-- The buffer has come from another one by some calls. -/
def ComesFrom (c b : RowBuffer) : Prop := ∃ calls, c = b.after calls

namespace ComesFrom
variable {b c d : RowBuffer}

theorem refl (b : RowBuffer) : b.ComesFrom b := ⟨[], rfl⟩

theorem trans (later : d.ComesFrom c) (first : c.ComesFrom b) : d.ComesFrom b := by
  obtain ⟨calls, rfl⟩ := first
  obtain ⟨more, rfl⟩ := later
  exact ⟨calls ++ more, (b.after_append calls more).symm⟩

theorem clear (b : RowBuffer) : b.clear.ComesFrom b := ⟨[.clear], rfl⟩

theorem append {time : Timestamp} {values : List Scalar} (added : b.append time values = .ok c) :
    c.ComesFrom b := by
  refine ⟨[.append time values], ?_⟩
  rw [after, List.foldl_cons, perform, added]
  rfl

theorem answer (b : RowBuffer) (more : Bool) : (b.answer more).2.ComesFrom b := by
  rw [RowBuffer.answer]
  split
  · exact refl b
  · exact ⟨[.build], rfl⟩

theorem lasts (b : RowBuffer) : Lasts (·.ComesFrom b) where
  clear before := (clear _).trans before
  append added before := (append added).trans before
  answer more before := (answer _ more).trans before

end ComesFrom

/-- The buffer holds just these rows, and has counted their bytes; there was room for each. -/
structure Stores (b : RowBuffer) (schema : Schema) (limits : Limits) (rows : List Row) : Prop where
  schema_eq : b.schema = schema
  sized : b.Sized limits
  times : b.times = rows.map (·.time)
  columns : b.columns = transposed schema.tail.length rows
  width : ∀ r ∈ rows, r.values.length = schema.tail.length
  bytes : b.bytes = (rows.map (·.byteSize)).sum
  admitted : limits.Admits rows

variable {b c : RowBuffer} {schema : Schema} {limits : Limits} {rows others : List Row}

theorem Laden.stores (laden : b.Laden schema limits) : b.clear.Stores schema limits [] where
  schema_eq := laden.schema_eq
  sized := ⟨laden.maxRows, laden.maxBytes⟩
  times := rfl
  columns := by
    have empty : transposed schema.tail.length [] = List.replicate schema.tail.length [] := by
      rw [transposed]
      simp only [List.map_nil, List.map_const', List.length_range]
    rw [empty, ← laden.width]
    exact List.map_const' ..
  width := nofun
  bytes := rfl
  admitted := limits.admits_nil

theorem Stores.isFull_iff (stores : b.Stores schema limits rows) :
    b.isFull = false ↔ limits.HasRoom rows := by
  rw [isFull, rowCount, stores.times, stores.bytes, stores.sized.rows, stores.sized.bytes,
    Bool.or_eq_false_iff, decide_eq_false_iff_not, decide_eq_false_iff_not, List.length_map,
    Nat.not_le, Nat.not_le]
  constructor
  · rintro ⟨count, size⟩
    exact ⟨count, size⟩
  · intro room
    exact ⟨room.count, room.size⟩

/-- A row that is added where there is room is held like the others. -/
theorem Stores.append (stores : b.Stores schema limits rows) (roomy : b.isFull = false)
    {time : Timestamp} {values : List Scalar} (added : b.append time values = .ok c) :
    c.Stores schema limits (rows ++ [⟨time, values⟩]) := by
  have room := stores.isFull_iff.1 roomy
  have size := stores.sized.append added
  rw [RowBuffer.append] at added
  split at added
  · cases added
  next same =>
  cases added
  have width : values.length = schema.tail.length := by
    rw [not_not.1 same, stores.columns, transposed, List.length_map, List.length_range]
  refine ⟨stores.schema_eq, size, ?_, ?_, ?_, ?_, room.admits _⟩
  · rw [stores.times, List.map_append]
    rfl
  · change (b.columns.zip values).map _ = _
    rw [stores.columns]
    exact transposed_concat rows ⟨time, values⟩ width
  · intro r member
    rcases List.mem_append.1 member with held | new
    · exact stores.width r held
    · obtain rfl := List.mem_singleton.1 new
      exact width
  · rw [stores.bytes, List.map_append, List.sum_append, List.map_singleton, List.sum_singleton]
    rfl

theorem type_of_column {type : ScalarType} {scalars : List Scalar} {made : Column}
    (turned : column type scalars = .ok made) : made.type = type := by
  unfold column at turned
  split at turned
  · cases turned
    rfl
  split at turned
  · cases turned
  rw [Column.cast] at turned
  split at turned
  next same =>
    cases turned
    exact same
  · obtain ⟨cells, _, rfl⟩ := map_eq_ok.1 turned
    rfl

theorem of_drain {fields : Schema} {columns left : List (List Scalar)} {made : List Column}
    (same : columns.length = fields.length) (drained : drain fields columns = (.ok made, left)) :
    List.Forall₂ (fun c scalars => column c.type scalars = .ok c) made columns := by
  induction fields generalizing columns left made with
  | nil =>
    obtain rfl := List.eq_nil_of_length_eq_zero same
    cases drained
    exact .nil
  | cons field fields ih =>
    obtain ⟨scalars, rest, rfl⟩ := List.exists_cons_of_length_eq_add_one same
    rcases turned : column field.type scalars with e | c
    · rw [drain, turned] at drained
      cases drained
    rcases later : drain fields rest with ⟨e | others, after⟩
    · rw [drain, turned, later] at drained
      cases drained
    rw [drain, turned, later] at drained
    cases drained
    refine .cons ?_ (ih (by simpa using same) later)
    rw [type_of_column turned, turned]

/-- The block that is built is made of the rows that are held. -/
theorem Stores.build (stores : b.Stores schema limits rows) {block : Block}
    (built : b.build.1 = .ok block) : block.Renders rows := by
  have width : b.columns.length = b.schema.tail.length := by
    rw [stores.columns, stores.schema_eq, transposed, List.length_map, List.length_range]
  rw [RowBuffer.build] at built
  rcases drained : drain b.schema.tail b.columns with ⟨e | made, left⟩
  · rw [drained] at built
    cases built
  rw [drained] at built
  obtain ⟨times, columns⟩ := Block.columns_of_ofColumns built
  have turned := of_drain width drained
  have count : block.series.length = schema.tail.length := by
    rw [← List.length_map (·.column), columns, turned.length_eq, width, stores.schema_eq]
  refine ⟨times.trans stores.times, ?_⟩
  rw [← columns, List.forall₂_map_left_iff, stores.columns] at turned
  rw [count]
  exact turned

/-- Rows of as many cells are told apart by their times and their columns. -/
theorem transposed_injective {width : Nat} (times : rows.map (·.time) = others.map (·.time))
    (columns : transposed width rows = transposed width others)
    (some_ : ∀ r ∈ rows, r.values.length = width) (all : ∀ r ∈ others, r.values.length = width) :
    rows = others := by
  have count : rows.length = others.length := by
    simpa using congrArg List.length times
  apply List.ext_getElem count
  intro i first second
  have time : rows[i].time = others[i].time := by
    have := congrArg (·[i]?) times
    simpa [first, second] using this
  have values : rows[i].values = others[i].values := by
    rw [← rows[i].cells_eq, ← others[i].cells_eq, some_ _ (List.getElem_mem first),
      all _ (List.getElem_mem second)]
    refine List.map_congr_left fun c inside => ?_
    have cells := congrArg (·[c]?) columns
    rw [transposed, transposed] at cells
    simp only [List.getElem?_map, List.getElem?_range (List.mem_range.1 inside), Option.map_some,
      Option.some.injEq] at cells
    have cell := congrArg (·[i]?) cells
    simpa [first, second] using cell
  exact congrArg₂ Row.mk time values

/-- Where the rows have the types of the schema, the block has no others. -/
theorem Stores.rows_eq {fields : Schema}
    (stores : b.Stores (Block.timeField :: fields) limits rows)
    (nullable : ∀ f ∈ fields, f.nullable = true)
    (holds : ∃ others, b.Holds (Block.timeField :: fields) others) {block : Block}
    (built : b.build.1 = .ok block) : block.rows = rows := by
  obtain ⟨others, holds⟩ := holds
  have width : ∀ r ∈ others, r.values.length = fields.length := by
    intro r member
    have types := congrArg List.length (holds.typed r member)
    simpa [Schema.types] using types
  obtain ⟨_, _, same, own, _⟩ := holds.build nullable
  rw [same] at built
  cases built
  rw [own]
  exact transposed_injective (holds.times.symm.trans stores.times)
    (holds.columns.symm.trans stores.columns) width stores.width

/-- The buffer gives a block of rows that the limits admit; where they leave room for
another row, there is a reason why none was added. -/
structure Gives (b : RowBuffer) (schema : Schema) (limits : Limits) (block : Block) (cut : Prop) :
    Prop where
  built : b.build.1 = .ok block
  rows : ∃ rows, rows ≠ [] ∧ b.Stores schema limits rows ∧ (limits.HasRoom rows → cut)

theorem Stores.gives (stores : b.Stores schema limits rows) {cut : Prop}
    (reason : limits.HasRoom rows → cut) {more : Bool} {block : Block}
    (answered : b.answer more = (.ok (.block block), c)) : b.Gives schema limits block cut := by
  rw [answer] at answered
  split at answered
  · cases more <;> cases answered
  next some_ =>
  refine ⟨?_, rows, ?_, stores, reason⟩
  · rcases built : b.build with ⟨e | other, d⟩
    all_goals
      rw [built] at answered
      cases answered
    rfl
  · rintro rfl
    rw [isEmpty, stores.times] at some_
    exact some_ rfl

end RowBuffer

end WindowFold
