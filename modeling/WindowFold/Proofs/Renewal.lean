import WindowFold.Proofs.Buffering

/-! A row buffer under any sequence of calls. Building a block makes it as good as new just
if every column can be turned into one of its type. Where a column cannot, the bytes of the
rows that are given up still count, and there are calls that tell the buffer from a new one. -/
namespace WindowFold

namespace Scalar

theorem le_byteSize (s : Scalar) : 64 ≤ s.byteSize := by
  obtain ⟨type, value⟩ := s
  cases type
  case utf8 =>
    cases value with
    | none => exact Nat.le_refl 64
    | some text => exact Nat.le_add_right 64 _
  all_goals exact Nat.le_refl 64

theorem byteSize_null (type : ScalarType) : (null type).byteSize = 64 := by
  cases type <;> rfl

end Scalar

namespace RowBuffer

/-- What a caller asks of a buffer. -/
inductive Call where
  | append (time : Timestamp) (values : List Scalar)
  | build
  | clear

/-- What a call gives, and what it leaves behind. A row that is refused changes nothing. -/
def perform (b : RowBuffer) : Call → Attempt RowBuffer (Option Block)
  | .append time values =>
    match b.append time values with
    | .error e => (.error e, b)
    | .ok c => (.ok none, c)
  | .build => (b.build.1.map some, b.build.2)
  | .clear => (.ok none, b.clear)

/-- The buffer after some calls. -/
def after (b : RowBuffer) (calls : List Call) : RowBuffer :=
  calls.foldl (fun b call => (b.perform call).2) b

/-- What a caller sees of a buffer: how many rows it holds, whether it is empty, and
whether it is full. -/
def seen (b : RowBuffer) : Nat × Bool × Bool := (b.rowCount, b.isEmpty, b.isFull)

/-- What each of the calls gives, and what is seen after it. -/
def replies : RowBuffer → List Call → List (Except Failure (Option Block) × Nat × Bool × Bool)
  | _, [] => []
  | b, call :: rest =>
    ((b.perform call).1, (b.perform call).2.seen) :: replies (b.perform call).2 rest

/-- No caller can tell the buffers apart. -/
def Alike (b c : RowBuffer) : Prop := b.seen = c.seen ∧ ∀ calls, b.replies calls = c.replies calls

theorem after_append (b : RowBuffer) (first later : List Call) :
    b.after (first ++ later) = (b.after first).after later := List.foldl_append

theorem Alike.perform {b c : RowBuffer} (alike : b.Alike c) (call : Call) :
    (b.perform call).2.Alike (c.perform call).2 := by
  constructor
  · have single := alike.2 [call]
    simp only [replies, List.cons.injEq, Prod.mk.injEq, and_true] at single
    exact single.2
  · intro calls
    exact (List.cons.inj (alike.2 (call :: calls))).2

/-- After any calls the same is seen of both. -/
theorem Alike.seen_after {b c : RowBuffer} (alike : b.Alike c) (calls : List Call) :
    (b.after calls).seen = (c.after calls).seen := by
  induction calls generalizing b c with
  | nil => exact alike.1
  | cons call rest ih => exact ih (alike.perform call)

/-! ### The bytes that are counted -/

/-- The bytes of a row of so many columns that has the scalar in one of them, at least. -/
def load (width : Nat) (s : Scalar) : Nat := timeBytes + 64 * (width - 1) + s.byteSize

theorem rowBytes_eq (values : List Scalar) :
    rowBytes values = timeBytes + (values.map (·.byteSize)).sum := by
  have run : ∀ bytes, values.foldl (fun bytes value => bytes + value.byteSize) bytes =
      bytes + (values.map (·.byteSize)).sum := by
    induction values with
    | nil => exact fun _ => rfl
    | cons s rest ih =>
      intro bytes
      rw [List.foldl_cons, ih, List.map_cons, List.sum_cons, Nat.add_assoc]
  exact run timeBytes

theorem le_sum_byteSize (values : List Scalar) :
    64 * values.length ≤ (values.map (·.byteSize)).sum := by
  induction values with
  | nil => exact Nat.le_refl _
  | cons s rest ih =>
    have first := s.le_byteSize
    simp only [List.length_cons, List.map_cons, List.sum_cons]
    omega

theorem load_le_rowBytes {values : List Scalar} {s : Scalar} (member : s ∈ values) :
    load values.length s ≤ rowBytes values := by
  obtain ⟨before, rest, rfl⟩ := List.append_of_mem member
  have first := le_sum_byteSize before
  have last := le_sum_byteSize rest
  simp only [load, rowBytes_eq, List.length_append, List.length_cons, List.map_append,
    List.map_cons, List.sum_append, List.sum_cons]
  omega

/-- The buffer has the schema and the limits that it was made with, and the bytes that are
counted are enough for the rows that any of its columns still holds. -/
structure Laden (b : RowBuffer) (schema : Schema) (limits : Limits) : Prop where
  schema_eq : b.schema = schema
  maxRows : b.maxRows = max limits.rows 1
  maxBytes : b.maxBytes = max limits.bytes 1
  width : b.columns.length = schema.tail.length
  loaded : ∀ column ∈ b.columns, (column.map (load schema.tail.length)).sum ≤ b.bytes

variable {b : RowBuffer} {schema : Schema} {limits : Limits}

theorem laden_create (schema : Schema) (limits : Limits) :
    (create schema limits).Laden schema limits where
  schema_eq := rfl
  maxRows := rfl
  maxBytes := rfl
  width := by simp [create]
  loaded := by
    intro column member
    rw [List.eq_of_mem_replicate member]
    exact Nat.zero_le _

theorem Laden.append (laden : b.Laden schema limits) {c : RowBuffer} {time : Timestamp}
    {values : List Scalar} (added : b.append time values = .ok c) : c.Laden schema limits := by
  rw [RowBuffer.append] at added
  split at added
  · cases added
  next same =>
  cases added
  have width : values.length = schema.tail.length := by
    rw [← laden.width]
    simpa using same
  refine ⟨laden.schema_eq, laden.maxRows, laden.maxBytes, ?_, ?_⟩
  · rw [List.length_map, List.length_zip, laden.width, width, Nat.min_self]
  · intro column member
    obtain ⟨⟨held, value⟩, paired, rfl⟩ := List.mem_map.1 member
    have before := laden.loaded held (List.of_mem_zip paired).1
    have new := load_le_rowBytes (List.of_mem_zip paired).2
    rw [width] at new
    simp only [List.map_append, List.sum_append, List.map_cons, List.map_nil, List.sum_singleton]
    omega

/-! ### Turning columns -/

/-- Either every column is turned, and none is kept; or one fails, and just those after it
are kept. -/
theorem drain_cases (fields : Schema) (columns : List (List Scalar))
    (same : columns.length = fields.length) :
    ((∀ p ∈ fields.zip columns, ∃ c, column p.1.type p.2 = .ok c) ∧
      ∃ made, drain fields columns = (.ok made, List.replicate fields.length [])) ∨
    ∃ fs field gs before scalars rest e, fields = fs ++ field :: gs ∧
      columns = before ++ scalars :: rest ∧ before.length = fs.length ∧
      column field.type scalars = .error e ∧
      drain fields columns = (.error e, List.replicate fs.length [] ++ [] :: rest) := by
  induction fields generalizing columns with
  | nil =>
    obtain rfl := List.eq_nil_of_length_eq_zero same
    exact .inl ⟨nofun, [], rfl⟩
  | cons field fields ih =>
    obtain ⟨scalars, rest, rfl⟩ := List.exists_cons_of_length_eq_add_one same
    rcases turned : column field.type scalars with e | c
    · exact .inr ⟨[], field, fields, [], scalars, rest, e, rfl, rfl, rfl, turned,
        by rw [drain, turned]; rfl⟩
    · rcases ih rest (by simpa using same) with ⟨all, made, drained⟩ |
        ⟨fs, other, gs, before, failing, later, e, rfl, rfl, width, failed, drained⟩
      · refine .inl ⟨?_, c :: made, ?_⟩
        · intro p member
          rcases List.mem_cons.1 member with rfl | member
          · exact ⟨c, turned⟩
          · exact all p member
        · rw [drain, turned, drained]
          rfl
      · refine .inr ⟨field :: fs, other, gs, scalars :: before, failing, later, e, rfl, rfl,
          congrArg (· + 1) width, failed, ?_⟩
        rw [drain, turned, drained]
        rfl

theorem build_of_ok {made : List Column} {columns : List (List Scalar)}
    (drained : drain b.schema.tail b.columns = (.ok made, columns)) :
    b.build.2 = { b with times := [], columns := columns, bytes := 0 } := by
  rw [build, drained]

theorem build_of_error {e : Failure} {columns : List (List Scalar)}
    (drained : drain b.schema.tail b.columns = (.error e, columns)) :
    b.build = (.error e, { b with times := [], columns := columns }) := by
  rw [build, drained]

/-- A buffer whose columns are all turned is new again. -/
theorem Laden.renewed (laden : b.Laden schema limits) {made : List Column}
    (drained : drain b.schema.tail b.columns =
      (.ok made, List.replicate b.schema.tail.length [])) :
    b.build.2 = create schema limits := by
  rw [build_of_ok drained, create]
  simp only [laden.schema_eq, laden.maxRows, laden.maxBytes, List.length_tail]

theorem Laden.build (laden : b.Laden schema limits) : b.build.2.Laden schema limits := by
  have width : b.columns.length = b.schema.tail.length := by rw [laden.width, laden.schema_eq]
  rcases drain_cases b.schema.tail b.columns width with ⟨_, made, drained⟩ |
    ⟨fs, field, gs, before, scalars, rest, e, fields, columns, same, _, drained⟩
  · rw [laden.renewed drained]
    exact laden_create schema limits
  · rw [build_of_error drained]
    refine ⟨laden.schema_eq, laden.maxRows, laden.maxBytes, ?_, ?_⟩
    · rw [← laden.width, columns]
      simp [same]
    · intro column member
      rcases List.mem_append.1 member with early | late
      · rw [List.eq_of_mem_replicate early]
        exact Nat.zero_le _
      rcases List.mem_cons.1 late with rfl | late
      · exact Nat.zero_le _
      · refine laden.loaded column ?_
        rw [columns]
        exact List.mem_append_right _ (List.mem_cons_of_mem _ late)

theorem Laden.perform (laden : b.Laden schema limits) (call : Call) :
    (b.perform call).2.Laden schema limits := by
  cases call with
  | append time values =>
    rcases added : b.append time values with e | c
    · simpa only [RowBuffer.perform, added] using laden
    · simpa only [RowBuffer.perform, added] using laden.append added
  | build => exact laden.build
  | clear =>
    refine ⟨laden.schema_eq, laden.maxRows, laden.maxBytes, ?_, ?_⟩
    · exact (List.length_map _).trans laden.width
    · intro column member
      obtain ⟨_, _, rfl⟩ := List.mem_map.1 member
      exact Nat.zero_le _

theorem Laden.after (laden : b.Laden schema limits) (calls : List Call) :
    (b.after calls).Laden schema limits := by
  induction calls generalizing b with
  | nil => exact laden
  | cons call rest ih => exact ih (laden.perform call)

/-! ### Failing again and again -/

/-- A row that has the scalar in one column, and nothing in the columns of other fields. -/
def lone (fs gs : Schema) (s : Scalar) : List Scalar :=
  fs.map (fun f => Scalar.null f.type) ++ s :: gs.map (fun g => Scalar.null g.type)

theorem rowBytes_lone (fs gs : Schema) (s : Scalar) :
    rowBytes (lone fs gs s) = load (fs.length + gs.length + 1) s := by
  have nulls : ∀ fields : Schema,
      ((fields.map fun f => Scalar.null f.type).map (·.byteSize)).sum = 64 * fields.length := by
    intro fields
    induction fields with
    | nil => rfl
    | cons f rest ih =>
      simp only [List.map_cons, List.sum_cons, List.length_cons, Scalar.byteSize_null, ih]
      omega
  simp only [rowBytes_eq, lone, List.map_append, List.sum_append, nulls, List.map_cons,
    List.sum_cons, load]
  omega

/-- Adds a row for each scalar, and builds. -/
def round (fs gs : Schema) (scalars : List Scalar) : List Call :=
  scalars.map (fun s => .append 0 (lone fs gs s)) ++ [.build]

/-- The columns before one hold as many nulls each; that one holds the scalars. -/
def columnsOf (fs : Schema) (count : Nat) (held : List Scalar) (rest : List (List Scalar)) :
    List (List Scalar) :=
  fs.map (fun f => List.replicate count (Scalar.null f.type)) ++ held :: rest

theorem columnsOf_zero (fs : Schema) (rest : List (List Scalar)) :
    columnsOf fs 0 [] rest = List.replicate fs.length [] ++ [] :: rest := by
  simp [columnsOf, List.map_const']

variable {fs gs : Schema} {field : Field}

theorem append_lone {count : Nat} {held : List Scalar} {rest : List (List Scalar)}
    (columns : b.columns = columnsOf fs count held rest) (width : rest.length = gs.length)
    (s : Scalar) :
    ∃ later, later.length = gs.length ∧
      (b.perform (.append 0 (lone fs gs s))).2 =
        { b with
          times := b.times ++ [0]
          columns := columnsOf fs (count + 1) (held ++ [s]) later
          bytes := b.bytes + load (fs.length + gs.length + 1) s } := by
  refine ⟨(rest.zip (gs.map fun g => Scalar.null g.type)).map fun p => p.1 ++ [p.2], ?_, ?_⟩
  · simp [width]
  have same : (lone fs gs s).length = b.columns.length := by
    simp [columns, columnsOf, lone, width]
  have before : ((fs.map fun f => List.replicate count (Scalar.null f.type)).zip
      (fs.map fun f => Scalar.null f.type)).map (fun p => p.1 ++ [p.2]) =
        fs.map fun f => List.replicate (count + 1) (Scalar.null f.type) := by
    rw [List.zip_map', List.map_map]
    apply List.map_congr_left
    intro f _
    exact List.replicate_succ'.symm
  rw [perform, RowBuffer.append, if_neg (by simp [same])]
  dsimp only
  rw [rowBytes_lone, columns, columnsOf, lone,
    List.zip_append (by rw [List.length_map, List.length_map]), List.zip_cons_cons, List.map_append,
    List.map_cons, before]
  rfl

theorem append_scalars {count : Nat} {held : List Scalar} {rest : List (List Scalar)}
    (columns : b.columns = columnsOf fs count held rest) (width : rest.length = gs.length)
    (scalars : List Scalar) :
    ∃ times later, later.length = gs.length ∧
      b.after (scalars.map fun s => .append 0 (lone fs gs s)) =
        { b with
          times := times
          columns := columnsOf fs (count + scalars.length) (held ++ scalars) later
          bytes := b.bytes + (scalars.map (load (fs.length + gs.length + 1))).sum } := by
  induction scalars generalizing b count held rest with
  | nil =>
    refine ⟨b.times, rest, width, ?_⟩
    simp only [List.length_nil, Nat.add_zero, List.append_nil, List.map_nil, List.sum_nil,
      ← columns]
    rfl
  | cons s others ih =>
    obtain ⟨between, inside, first⟩ := append_lone columns width s
    obtain ⟨times, later, last, rows⟩ := ih (b := { b with
      times := b.times ++ [0]
      columns := columnsOf fs (count + 1) (held ++ [s]) between
      bytes := b.bytes + load (fs.length + gs.length + 1) s }) rfl inside
    refine ⟨times, later, last, ?_⟩
    rw [List.map_cons, after, List.foldl_cons, first]
    refine rows.trans ?_
    simp only [List.length_cons, List.map_cons, List.sum_cons, List.append_assoc, mk.injEq,
      true_and]
    refine ⟨?_, Nat.add_assoc _ _ _⟩
    congr 1
    omega

/-- Columns before the failing one hold nulls of their own types, and are turned. -/
theorem drain_columnsOf {count : Nat} {scalars : List Scalar} {rest : List (List Scalar)}
    {e : Failure} (failed : column field.type scalars = .error e) :
    drain (fs ++ field :: gs) (columnsOf fs count scalars rest) =
      (.error e, List.replicate fs.length [] ++ [] :: rest) := by
  induction fs with
  | nil =>
    rw [columnsOf, List.map_nil, List.nil_append, List.nil_append, drain, failed]
    rfl
  | cons f fs ih =>
    have typed : ∀ s ∈ List.replicate count (Scalar.null f.type), s.type = f.type := by
      intro s member
      rw [List.eq_of_mem_replicate member]
      rfl
    obtain ⟨c, turned, _, _⟩ := column_eq typed
    rw [columnsOf] at ih
    rw [columnsOf, List.map_cons, List.cons_append, List.cons_append, drain, turned, ih]
    rfl

/-- A round fails, gives up its rows, and adds their bytes to those that are counted. -/
theorem after_round {scalars : List Scalar} {rest : List (List Scalar)} {e : Failure}
    (fields : b.schema.tail = fs ++ field :: gs) (empty : b.times = [])
    (columns : b.columns = columnsOf fs 0 [] rest) (width : rest.length = gs.length)
    (failed : column field.type scalars = .error e) :
    ∃ later, later.length = gs.length ∧
      b.after (round fs gs scalars) =
        { b with
          columns := columnsOf fs 0 [] later
          bytes := b.bytes + (scalars.map (load (fs.length + gs.length + 1))).sum } := by
  obtain ⟨times, later, last, rows⟩ := append_scalars columns width scalars
  refine ⟨later, last, ?_⟩
  rw [round, after_append, rows, after, List.foldl_cons, List.foldl_nil, perform]
  dsimp only
  have drained : drain b.schema.tail (columnsOf fs (0 + scalars.length) ([] ++ scalars) later) =
      (.error e, List.replicate fs.length [] ++ [] :: later) := by
    rw [fields]
    exact drain_columnsOf failed
  rw [build_of_error drained, columnsOf_zero, empty]

theorem after_rounds {scalars : List Scalar} {rest : List (List Scalar)} {e : Failure}
    (fields : b.schema.tail = fs ++ field :: gs) (empty : b.times = [])
    (columns : b.columns = columnsOf fs 0 [] rest) (width : rest.length = gs.length)
    (failed : column field.type scalars = .error e) (count : Nat) :
    (b.after (List.replicate count (round fs gs scalars)).flatten).times = [] ∧
      (b.after (List.replicate count (round fs gs scalars)).flatten).maxBytes = b.maxBytes ∧
      (b.after (List.replicate count (round fs gs scalars)).flatten).maxRows = b.maxRows ∧
      (b.after (List.replicate count (round fs gs scalars)).flatten).bytes =
        b.bytes + count * (scalars.map (load (fs.length + gs.length + 1))).sum := by
  induction count generalizing b rest with
  | zero => exact ⟨empty, rfl, rfl, by simp [after]⟩
  | succ count ih =>
    obtain ⟨later, last, round⟩ := after_round fields empty columns width failed
    rw [List.replicate_succ, List.flatten_cons, after_append, round]
    obtain ⟨times, bytesAtMost, rowsAtMost, bytes⟩ := ih (b := { b with
      columns := columnsOf fs 0 [] later
      bytes := b.bytes + (scalars.map (load (fs.length + gs.length + 1))).sum })
      fields empty rfl last
    refine ⟨times, bytesAtMost, rowsAtMost, bytes.trans ?_⟩
    dsimp only
    rw [Nat.succ_mul]
    omega

/-- A buffer in which the column failed that fails again is told from a new one: enough
rounds fill it, and not the new one. -/
theorem not_alike_create {scalars : List Scalar} {rest : List (List Scalar)} {e : Failure}
    (laden : b.Laden schema limits) (fields : schema.tail = fs ++ field :: gs)
    (empty : b.times = []) (columns : b.columns = columnsOf fs 0 [] rest)
    (width : rest.length = gs.length) (failed : column field.type scalars = .error e)
    (bytes : (scalars.map (load schema.tail.length)).sum ≤ b.bytes) :
    ¬ b.Alike (create schema limits) := by
  intro alike
  have wide : schema.tail.length = fs.length + gs.length + 1 := by
    rw [fields, List.length_append, List.length_cons, Nat.add_assoc]
  rw [wide] at bytes
  have some : scalars ≠ [] := by
    rintro rfl
    cases failed
  have positive : 0 < (scalars.map (load (fs.length + gs.length + 1))).sum := by
    obtain ⟨s, others, rfl⟩ := List.exists_cons_of_ne_nil some
    simp only [List.map_cons, List.sum_cons, load, timeBytes]
    omega
  generalize total : (scalars.map (load (fs.length + gs.length + 1))).sum = size at bytes positive
  -- As many rounds as a new buffer stands without being full.
  let count := (max limits.bytes 1 - 1) / size
  have fewest : count * size ≤ max limits.bytes 1 - 1 := Nat.div_mul_le_self _ _
  have most : max limits.bytes 1 - 1 < count * size + size := by
    have := Nat.lt_div_mul_add (a := max limits.bytes 1 - 1) positive
    omega
  have fresh : (create schema limits).columns =
    columnsOf fs 0 [] (List.replicate gs.length []) := by
    rw [columnsOf_zero, create]
    have : schema.length - 1 = fs.length + (gs.length + 1) := by
      rw [← List.length_tail, wide]
      omega
    dsimp only
    rw [this, ← List.replicate_append_replicate, List.replicate_succ]
  obtain ⟨held, bytesHeld, _, counted⟩ := after_rounds (b := b)
    (laden.schema_eq ▸ fields) empty columns width failed count
  obtain ⟨none, bytesNew, rowsNew, few⟩ := after_rounds (b := create schema limits)
    fields rfl fresh (List.length_replicate) failed count
  have seen := alike.seen_after (List.replicate count (round fs gs scalars)).flatten
  rw [total] at counted few
  simp only [RowBuffer.seen, isFull, rowCount, isEmpty, held, none, bytesHeld, bytesNew, rowsNew,
    counted, few, laden.maxBytes, Prod.mk.injEq, true_and] at seen
  simp only [create, List.length_nil, Nat.zero_add] at seen
  have full : max limits.bytes 1 ≤ b.bytes + count * size := by omega
  have open_ : ¬ max limits.bytes 1 ≤ count * size := by omega
  have rows : ¬ max limits.rows 1 ≤ 0 := by omega
  simp [full, open_, rows] at seen

/-- Whatever was asked of a buffer, after a build it holds no row. No caller can tell it
from a new one just if every column could be turned into one of its type. -/
theorem build_alike_iff (schema : Schema) (limits : Limits) (calls : List Call) :
    (((create schema limits).after calls).build.2.rowCount = 0 ∧
      ((create schema limits).after calls).build.2.isEmpty = true) ∧
    (((create schema limits).after calls).build.2.Alike (create schema limits) ↔
      ∀ p ∈ schema.tail.zip ((create schema limits).after calls).columns,
        ∃ c, column p.1.type p.2 = .ok c) := by
  have laden := (laden_create schema limits).after calls
  have after := laden.build
  generalize (create schema limits).after calls = b at laden after ⊢
  have width : b.columns.length = schema.tail.length := laden.width
  rcases drain_cases schema.tail b.columns width with ⟨all, made, drained⟩ |
    ⟨fs, field, gs, before, scalars, rest, e, fields, columns, same, failed, drained⟩
  · rw [← laden.schema_eq] at drained
    rw [laden.renewed drained]
    exact ⟨⟨rfl, rfl⟩, fun _ => all, fun _ => ⟨rfl, fun _ => rfl⟩⟩
  · rw [← laden.schema_eq] at drained
    have built := build_of_error drained
    rw [built] at after ⊢
    refine ⟨⟨rfl, rfl⟩, fun alike => ?_, fun all => ?_⟩
    · exfalso
      refine not_alike_create after fields rfl (columnsOf_zero fs rest).symm ?_ failed ?_ alike
      · have := width
        rw [columns, fields] at this
        simp only [List.length_append, List.length_cons, same] at this
        omega
      · refine laden.loaded scalars ?_
        rw [columns]
        exact List.mem_append_right _ List.mem_cons_self
    · obtain ⟨c, turned⟩ := all (field, scalars) (by
        rw [fields, columns, List.zip_append same.symm, List.zip_cons_cons]
        exact List.mem_append_right _ List.mem_cons_self)
      rw [failed] at turned
      cases turned

/-- Two columns of numbers. -/
def pairSchema : Schema :=
  [Block.timeField, ⟨"first", .int64, true⟩, ⟨"second", .int64, true⟩]

/-- Rows whose first column holds a number and a truth value: it cannot be turned. -/
def mixedRows : List Call :=
  [.append 0 [.int64 1, .int64 2], .append 1 [⟨.boolean, some true⟩, .int64 3]]

/-- After the build that fails the buffer is empty and yet full, and the second column
still has its rows: they are one too many for every later block. -/
theorem build_alike_mixed :
    ((create pairSchema ⟨1000, 200⟩).after mixedRows).build.1 = .error .mixedScalars ∧
      ((create pairSchema ⟨1000, 200⟩).after mixedRows).build.2.seen = (0, true, true) ∧
      (create pairSchema ⟨1000, 200⟩).seen = (0, true, false) ∧
      ¬ ((create pairSchema ⟨1000, 200⟩).after mixedRows).build.2.Alike
        (create pairSchema ⟨1000, 200⟩) ∧
      (((create pairSchema ⟨1000, 200⟩).after (mixedRows ++ [.build])).perform .build).1 =
        .error .columnMismatch := by
  refine ⟨rfl, by decide, by decide, ?_, by decide⟩
  intro alike
  exact absurd alike.1 (by decide)

end RowBuffer
end WindowFold
