import Mathlib.Data.List.Infix
import WindowFold.Proofs.Interchange

/-! What the order of the blocks makes of a window. Where every row is taken in, it makes
no difference; where the first row with a value is final, the first block with such a row
decides. The words in which rows are counted may still overflow in one order only. -/
namespace WindowFold

namespace Aggregator
variable {a : Aggregator} {scan : Scan} {rows : List Row} {blocks others : List Block}

/-- What the aggregator comes to in a window, fed with these blocks. -/
def comesTo (a : Aggregator) (range : TimeRange) (blocks : List Block) :
    Except Failure Unit × List Scalar :=
  (((a.enter range).feedBlocks blocks).1, ((a.enter range).feedBlocks blocks).2.output)

def firstValue? (a : Aggregator) (range : TimeRange) (blocks : List Block) :
    Option (Timestamp × Scalar) :=
  (Accumulator.filled ((Block.rowsWithinAll range blocks).map a.reading)).head?

theorem firstValue?_cons (a : Aggregator) (range : TimeRange) (block : Block) (rest : List Block) :
    a.firstValue? range (block :: rest) =
      (a.firstValue? range [block]).or (a.firstValue? range rest) := by
  simp only [firstValue?, Block.rowsWithinAll, List.flatMap_cons, List.flatMap_nil, List.append_nil,
    List.map_append, Accumulator.filled_append, List.head?_append]

theorem exists_firstValue? {range : TimeRange} {first : Timestamp × Scalar}
    (found : a.firstValue? range blocks = some first) :
    ∃ block ∈ blocks, a.firstValue? range [block] = some first := by
  induction blocks with
  | nil => contradiction
  | cons block rest ih =>
    rw [firstValue?_cons] at found
    cases mine : a.firstValue? range [block] with
    | some value =>
      rw [mine, Option.some_or] at found
      exact ⟨block, List.mem_cons_self, mine.trans found⟩
    | none =>
      rw [mine, Option.none_or] at found
      obtain ⟨other, member, first⟩ := ih found
      exact ⟨other, List.mem_cons_of_mem _ member, first⟩

theorem firstValue?_eq_none {range : TimeRange} :
    a.firstValue? range blocks = none ↔ ∀ block ∈ blocks, a.firstValue? range [block] = none := by
  induction blocks with
  | nil => simp [firstValue?, Block.rowsWithinAll, Accumulator.filled]
  | cons block rest ih => rw [firstValue?_cons, Option.or_eq_none_iff, ih, List.forall_mem_cons]

/-- The rows that a row stands for: one if it has a value, or those of the partial result in it. -/
def worth (a : Aggregator) (r : Row) : Int :=
  if a.step.readsRows then
    if (r.cell a.column).isNull then 0 else 1
  else
    match (r.cell a.column).toInt64? with
    | .ok (some n) => n
    | _ => 0

/-- Somewhere on the way the count is past the end of its word. A build that checks its sums
stops there, any other wraps round. -/
def Overruns (a : Aggregator) (range : TimeRange) (blocks : List Block) : Prop :=
  ∃ part ∈ (Block.rowsWithinAll range blocks).inits,
    (part.map a.worth).sum < Int64.minValue.toInt ∨ Int64.maxValue.toInt < (part.map a.worth).sum

instance (range : TimeRange) : Decidable (a.Overruns range blocks) :=
  inferInstanceAs (Decidable (∃ part ∈ _, _))

theorem worth_nonneg (readsRows : a.step.readsRows = true) (r : Row) : 0 ≤ a.worth r := by
  rw [worth, if_pos readsRows]
  split <;> decide

theorem take_count (width : a.step.readsRows = false → a.inputs.length = 1) (n : Int64) (r : Row) :
    a.take (.count n) r = .count (n + .ofInt (a.worth r)) := by
  cases readsRows : a.step.readsRows with
  | true =>
    rw [take, worth, if_pos readsRows, if_pos readsRows]
    cases null : (r.cell a.column).isNull <;>
      simp [Accumulator.absorb, reading, null, Accumulator.isSettled]
  | false =>
    obtain ⟨c, only⟩ := List.length_eq_one_iff.1 (width readsRows)
    obtain ⟨k, read⟩ := (r.cell c).toInt64?_ok
    have column : a.column = c := by rw [Aggregator.column, only]; rfl
    cases k <;> simp [take, worth, readsRows, taking, only, column, Accumulator.addPartial, read]

theorem takeAll_count (width : a.step.readsRows = false → a.inputs.length = 1) {n : Int64}
    (counts : a.accumulator = .count n) :
    (a.takeAll rows).accumulator = .count (n + .ofInt (rows.map a.worth).sum) := by
  have run : rows.foldl a.take (.count n) = .count (n + .ofInt (rows.map a.worth).sum) := by
    clear counts
    induction rows generalizing n with
    | nil => simp
    | cons r rest ih =>
      rw [List.foldl_cons, take_count width, ih, List.map_cons, List.sum_cons, Int64.ofInt_add,
        Int64.add_assoc]
  rw [takeAll, counts]
  exact run

/-- Counts that are not negative only grow, so their sum alone decides. -/
theorem overruns_iff {range : TimeRange}
    (grows : ∀ r ∈ Block.rowsWithinAll range blocks, 0 ≤ a.worth r) :
    a.Overruns range blocks ↔
      Int64.maxValue.toInt < ((Block.rowsWithinAll range blocks).map a.worth).sum := by
  have positive : ∀ n ∈ (Block.rowsWithinAll range blocks).map a.worth, 0 ≤ n :=
    List.forall_mem_map.2 grows
  constructor
  · rintro ⟨part, early, below | above⟩
    · have inside := ((List.mem_inits _ _).1 early).sublist.map a.worth
      have := List.sum_nonneg fun n member => positive n (inside.subset member)
      have : Int64.minValue.toInt < 0 := by decide
      omega
    · have inside := ((List.mem_inits _ _).1 early).sublist.map a.worth
      exact above.trans_le (inside.sum_le_sum positive)
  · intro above
    exact ⟨_, (List.mem_inits _ _).2 List.prefix_rfl, .inr above⟩

section
variable {spec : AggregationSpec} {schema : Schema} {range : TimeRange}

/-- As long as it stays in its word, the count is the sum of what the rows stand for. -/
theorem comesTo_count (created : create spec schema scan = .ok a) (counts : spec.kind = .count)
    (same : ∀ block ∈ blocks, block.schema.types = schema.types)
    (ordered : ∀ block ∈ blocks, scan.Ordered block.rows) (fits : ¬a.Overruns range blocks) :
    a.comesTo range blocks =
      (.ok (), [.int64 ((Block.rowsWithinAll range blocks).map a.worth).sum]) := by
  obtain ⟨field, found, fresh, _, step, _, _, width⟩ := of_create created
  have fresh : a.accumulator = .count 0 := by
    rw [counts] at fresh
    exact (Except.ok.inj fresh).symm
  have single : a.inputs.length = 1 := by
    rw [fresh] at width
    exact width.trans (ite_self 1)
  have bound : ∀ c ∈ a.inputs, c < schema.types.length := by
    obtain ⟨c, only⟩ := List.length_eq_one_iff.1 single
    have column : a.column = c := by rw [column, only]; rfl
    have inside := (List.getElem?_eq_some_iff.1 (column ▸ found)).1
    simpa [only, Schema.types] using inside
  have fed : (a.enter range).feedBlocks blocks = _ :=
    feedBlocks_of_create created (by simp [counts]) same ordered (by simp [counts]) bound
  have counted : ((a.enter range).takeAll (Block.rowsWithinAll range blocks)).accumulator =
      .count (.ofInt ((Block.rowsWithinAll range blocks).map a.worth).sum) := by
    have reset : (a.enter range).accumulator = .count 0 := by rw [enter, fresh]; rfl
    have taken : ((a.enter range).takeAll (Block.rowsWithinAll range blocks)).accumulator = _ :=
      takeAll_count (a := a.enter range) (fun _ => single) reset
    rwa [Int64.zero_add] at taken
  have exact : (Int64.ofInt ((Block.rowsWithinAll range blocks).map a.worth).sum).toInt =
      ((Block.rowsWithinAll range blocks).map a.worth).sum := by
    have inside := not_or.1 fun out => fits ⟨_, (List.mem_inits _ _).2 List.prefix_rfl, out⟩
    apply Int64.toInt_ofInt_of_le
    · exact not_lt.1 inside.1
    · exact Int.lt_add_one_of_le (not_lt.1 inside.2)
  rw [comesTo, fed, output, counted, Accumulator.result, Accumulator.partialResult, exact, ite_self]

theorem comesTo_of_firstValue? (hasty : a.isHasty = true)
    (fed : (a.enter range).feedBlocks blocks =
      (.ok (), (a.enter range).takeAll (Block.rowsWithinAll range blocks)))
    (fed' : (a.enter range).feedBlocks others =
      (.ok (), (a.enter range).takeAll (Block.rowsWithinAll range others)))
    (first : a.firstValue? range blocks = a.firstValue? range others) :
    a.comesTo range blocks = a.comesTo range others := by
  obtain ⟨readsRows, hasty⟩ : a.step.readsRows = true ∧ a.accumulator.hasty = true := by
    simpa [isHasty] using hasty
  have alike := Accumulator.absorbAll_hasty ((Accumulator.hasty_reset a.accumulator).trans hasty)
    (Accumulator.reset_reset _) first
  have given : (a.enter range).given (Block.rowsWithinAll range blocks) =
      (a.enter range).given (Block.rowsWithinAll range others) :=
    congrArg (fun acc => { a.enter range with accumulator := acc }) alike
  rw [comesTo, comesTo, fed, fed', takeAll_rows (a := a.enter range) readsRows,
    takeAll_rows (a := a.enter range) readsRows, given]

theorem exists_comesTo_alone (hasty : a.isHasty = true)
    (fed : ∀ part, part ⊆ blocks → (a.enter range).feedBlocks part =
      (.ok (), (a.enter range).takeAll (Block.rowsWithinAll range part)))
    {b : Block} (member : b ∈ blocks) (value : (a.firstValue? range [b]).isSome) :
    ∃ others, blocks.Perm others ∧ a.comesTo range others = a.comesTo range [b] := by
  classical
  have perm := List.perm_cons_erase member
  refine ⟨b :: blocks.erase b, perm, ?_⟩
  apply comesTo_of_firstValue? hasty (fed _ perm.symm.subset)
    (fed _ (List.cons_subset.2 ⟨member, List.nil_subset _⟩))
  rw [firstValue?_cons a range b (blocks.erase b), Option.or_of_isSome value]

theorem exists_decisive (hasty : a.isHasty = true)
    (fed : ∀ part, part ⊆ blocks → (a.enter range).feedBlocks part =
      (.ok (), (a.enter range).takeAll (Block.rowsWithinAll range part)))
    (value : (a.firstValue? range blocks).isSome) :
    ∃ b ∈ blocks, (a.firstValue? range [b]).isSome ∧
      a.comesTo range blocks = a.comesTo range [b] := by
  obtain ⟨first, found⟩ := Option.isSome_iff_exists.1 value
  obtain ⟨b, member, mine⟩ := exists_firstValue? found
  refine ⟨b, member, by rw [mine]; rfl, ?_⟩
  exact comesTo_of_firstValue? hasty (fed _ (List.Subset.refl _))
    (fed _ (List.cons_subset.2 ⟨member, List.nil_subset _⟩)) (found.trans mine.symm)

/-- The order makes no difference, unless the first value is final and two blocks with a value
come to different results on their own. -/
theorem comesTo_alike_iff (created : create spec schema scan = .ok a)
    (merges : spec.kind ≠ .sum ∧ spec.kind ≠ .avg ∧ spec.kind ≠ .extreme) (range : TimeRange)
    (same : ∀ block ∈ blocks, block.schema.types = schema.types)
    (ordered : ∀ block ∈ blocks, scan.Ordered block.rows)
    (apart : spec.kind = .firstValue ∨ spec.kind = .lastValue →
      ((Block.rowsWithinAll range blocks).filterMap a.mark?).Nodup) :
    (∀ others, blocks.Perm others → a.comesTo range others = a.comesTo range blocks) ↔
      (a.isHasty = true → ∀ b ∈ blocks, ∀ c ∈ blocks,
        (a.firstValue? range [b]).isSome → (a.firstValue? range [c]).isSome →
        a.comesTo range [b] = a.comesTo range [c]) := by
  cases hasty : a.isHasty with
  | false =>
    apply iff_of_true
    · intro others perm
      rw [comesTo, comesTo, feedBlocks_perm created merges hasty same ordered apart perm]
    · nofun
  | true =>
    have readsRows : spec.step.readsRows = true := by
      obtain ⟨_, _, _, _, step, _⟩ := of_create created
      rw [isHasty, Bool.and_eq_true] at hasty
      exact step ▸ hasty.1
    have suits := suits_within created readsRows merges ordered apart
    have fed : ∀ part, part ⊆ blocks → (a.enter range).feedBlocks part =
        (.ok (), (a.enter range).takeAll (Block.rowsWithinAll range part)) :=
      fun part inside => feedBlocks_rows (fun b member => same b (inside member))
        (fun b member => ordered b (inside member)) (fun b member => suits b (inside member))
    constructor
    · intro all _ b left c right first second
      obtain ⟨others, perm, alone⟩ := exists_comesTo_alone hasty fed left first
      obtain ⟨others', perm', alone'⟩ := exists_comesTo_alone hasty fed right second
      rw [← alone, ← alone', all others perm, all others' perm']
    · intro alike others perm
      have inside : others ⊆ blocks := perm.symm.subset
      have none_iff : a.firstValue? range others = none ↔ a.firstValue? range blocks = none := by
        rw [firstValue?_eq_none, firstValue?_eq_none]
        exact forall_congr' fun b => imp_congr_left perm.mem_iff.symm
      by_cases none : a.firstValue? range blocks = none
      · exact comesTo_of_firstValue? hasty (fed _ inside) (fed _ (List.Subset.refl _))
          ((none_iff.2 none).trans none.symm)
      · have some := Option.isSome_iff_ne_none.2 none
        have some' := Option.isSome_iff_ne_none.2 (mt none_iff.1 none)
        obtain ⟨b, left, mine, whole⟩ := exists_decisive hasty fed some
        obtain ⟨c, right, theirs, swapped⟩ := exists_decisive hasty
          (fun part within => fed part (List.Subset.trans within inside)) some'
        rw [whole, swapped]
        exact alike rfl c (inside right) b left theirs mine

theorem overruns_perm (perm : blocks.Perm others)
    (grows : a.step.readsRows = false →
      ∀ r ∈ Block.rowsWithinAll range blocks, 0 ≤ a.worth r) :
    a.Overruns range others ↔ a.Overruns range blocks := by
  have rows : (Block.rowsWithinAll range others).Perm (Block.rowsWithinAll range blocks) :=
    perm.symm.flatMap_right _
  have here : ∀ r ∈ Block.rowsWithinAll range blocks, 0 ≤ a.worth r := by
    cases readsRows : a.step.readsRows with
    | true => exact fun r _ => worth_nonneg readsRows r
    | false => exact grows readsRows
  have there : ∀ r ∈ Block.rowsWithinAll range others, 0 ≤ a.worth r :=
    fun r member => here r (rows.mem_iff.1 member)
  rw [overruns_iff here, overruns_iff there, (rows.map a.worth).sum_eq]

/-- The order of the blocks makes no difference, unless rows are read for a first or last
value, or for a first or last time, in the direction in which the first one is final. Then
the blocks with a value in the window must all come to the same on their own.

A count that does not overrun is exact. Rows, and partial counts that are not negative,
overrun in every order or in none. -/
theorem comesTo_perm_iff (created : create spec schema scan = .ok a)
    (merges : spec.kind ≠ .sum ∧ spec.kind ≠ .avg ∧ spec.kind ≠ .extreme) (range : TimeRange)
    (same : ∀ block ∈ blocks, block.schema.types = schema.types)
    (ordered : ∀ block ∈ blocks, scan.Ordered block.rows)
    (apart : spec.kind = .firstValue ∨ spec.kind = .lastValue →
      ((Block.rowsWithinAll range blocks).filterMap a.mark?).Nodup) :
    ((∀ others, blocks.Perm others → a.comesTo range others = a.comesTo range blocks) ↔
      (a.isHasty = true → ∀ b ∈ blocks, ∀ c ∈ blocks,
        (a.firstValue? range [b]).isSome → (a.firstValue? range [c]).isSome →
        a.comesTo range [b] = a.comesTo range [c])) ∧
    (spec.kind = .count →
      (¬a.Overruns range blocks → a.comesTo range blocks =
        (.ok (), [.int64 ((Block.rowsWithinAll range blocks).map a.worth).sum])) ∧
      ((a.step.readsRows = false → ∀ r ∈ Block.rowsWithinAll range blocks, 0 ≤ a.worth r) →
        ∀ others, blocks.Perm others → (a.Overruns range others ↔ a.Overruns range blocks))) := by
  refine ⟨comesTo_alike_iff created merges range same ordered apart, fun counts => ⟨?_, ?_⟩⟩
  · exact comesTo_count created counts same ordered
  · exact fun grows others perm => overruns_perm perm grows

end

/-- Partial counts of both signs may overrun in one order only. -/
example :
    let count : Aggregator :=
      ⟨"count(rows)", .count, .closing, [1], .count 0, .ascending, .always⟩
    let partials : List Block := [Query.sampleBlock [1] [some Int64.maxValue.toInt] rfl,
      Query.sampleBlock [2] [some 1] rfl, Query.sampleBlock [3] [some (-1)] rfl]
    count.Overruns ⟨0, 9⟩ partials ∧ ¬count.Overruns ⟨0, 9⟩ (partials.rotate 2) := by
  decide

def sampleInputs : List Block :=
  [Query.sampleBlock [3, 7] [some 30, none] rfl, Query.sampleBlock [5] [some 50] rfl]

/-- A last value in an ascending scan: both blocks are seen. -/
def sampleLast : Aggregator where
  name := "last_value(value)"
  kind := .lastValue
  step := .single
  inputs := [1]
  accumulator := .valueAt .last .ascending .int64 none
  scan := .ascending
  range := .always

theorem comesTo_perm_iff_last :
    create ⟨.lastValue, .single, [1], none⟩ (Query.sampleBlock [] [] rfl).schema .ascending =
        .ok sampleLast ∧
      (∀ block ∈ sampleInputs, block.schema.types = (Query.sampleBlock [] [] rfl).schema.types) ∧
      (∀ block ∈ sampleInputs, Scan.ascending.Ordered block.rows) ∧
      ((Block.rowsWithinAll ⟨0, 9⟩ sampleInputs).filterMap sampleLast.mark?).Nodup ∧
      ∀ others, sampleInputs.Perm others →
        sampleLast.comesTo ⟨0, 9⟩ others = sampleLast.comesTo ⟨0, 9⟩ sampleInputs := by
  have created : create ⟨.lastValue, .single, [1], none⟩ (Query.sampleBlock [] [] rfl).schema
      .ascending = .ok sampleLast := by decide
  have same : ∀ block ∈ sampleInputs,
      block.schema.types = (Query.sampleBlock [] [] rfl).schema.types := by decide
  have ordered : ∀ block ∈ sampleInputs, Scan.ascending.Ordered block.rows := by
    intro block member
    rw [← Block.checkScanOrder_eq_ok_iff]
    revert block
    decide
  have apart : ((Block.rowsWithinAll ⟨0, 9⟩ sampleInputs).filterMap sampleLast.mark?).Nodup := by
    decide
  refine ⟨created, same, ordered, apart, ?_⟩
  exact (comesTo_perm_iff created (by decide) ⟨0, 9⟩ same ordered fun _ => apart).1.2 nofun

/-- A first value in an ascending scan is that of the first block. -/
theorem comesTo_hasty_swap :
    (create ⟨.firstValue, .single, [1], none⟩ (Query.sampleBlock [] [] rfl).schema .ascending).map
        (fun a => [sampleInputs, sampleInputs.reverse].map (a.comesTo ⟨0, 9⟩)) =
      .ok [(.ok (), [.int64 30]), (.ok (), [.int64 50])] := by
  decide

end Aggregator
end WindowFold
