import WindowFold.Proofs.Phases
import WindowFold.Proofs.Recutting

/-! Partial results passed on from place to place. Rows are aggregated in groups, the
partial results of some groups are put together, those of several such places again, and
so on to the top. However the places are arranged, the result there is that of all rows
at once. -/
namespace WindowFold

/-- Groups of rows, and places at which the partial results of others come together. -/
inductive Relay (type : ScalarType) where
  | group (rows : List (Timestamp × Option type.Value))
  | place (parts : List (Relay type))

namespace Relay
variable {type : ScalarType}

mutual

def groups : Relay type → List (List (Timestamp × Option type.Value))
  | group rows => [rows]
  | place parts => partsGroups parts

def partsGroups : List (Relay type) → List (List (Timestamp × Option type.Value))
  | [] => []
  | part :: rest => part.groups ++ partsGroups rest

end

def rows (relay : Relay type) : List (Timestamp × Option type.Value) := relay.groups.flatten

mutual

/-- What a fresh accumulator comes to at the top: it takes in the rows of a group at once,
and the partial results of others one after the other. -/
def gather (fresh : Accumulator) : Relay type → Except Failure Accumulator
  | group rows => fresh.addRows (rows.map (·.1)) ⟨type, rows.map (·.2)⟩
  | place parts => gatherParts fresh fresh parts

def gatherParts (fresh acc : Accumulator) : List (Relay type) → Except Failure Accumulator
  | [] => .ok acc
  | part :: rest =>
    match part.gather fresh with
    | .error e => .error e
    | .ok other =>
      match acc.addPartial other.partialResult with
      | (.error e, _) => .error e
      | (.ok (), acc) => gatherParts fresh acc rest

end

end Relay

namespace Accumulator
variable {type : ScalarType} {acc fresh : Accumulator}

theorem map_fst_scalarRows (rows : List (Timestamp × Option type.Value)) :
    (scalarRows rows).map (·.1) = rows.map (·.1) := by
  rw [scalarRows, List.map_map]
  rfl

theorem reflects_nil (mergeable : fresh.mergeable = true) (clean : fresh.reset = fresh) :
    fresh.Reflects [] := by
  have separable : fresh.Separable [] := by cases fresh <;> simp [Separable]
  exact reflects_absorbAll mergeable clean separable

/-- The accumulator reflects the rows, and is the fresh one but for them. -/
def Gathers (fresh : Accumulator) (rows : List (Timestamp × Scalar)) (acc : Accumulator) : Prop :=
  acc.Reflects rows ∧ acc.reset = fresh

def TakesIn (fresh : Accumulator) (rows : List (Timestamp × Option type.Value)) : Prop :=
  ∃ acc, fresh.addRows (rows.map (·.1)) ⟨type, rows.map (·.2)⟩ = .ok acc ∧
    fresh.Gathers (scalarRows rows) acc

theorem takesIn_of_create {kind : AggregationKind} {scan : Scan}
    (created : create kind type scan = .ok fresh)
    (merges : kind ≠ .sum ∧ kind ≠ .avg ∧ kind ≠ .extreme)
    {rows : List (Timestamp × Option type.Value)}
    (ordered : rows.Pairwise fun x y => scan.inOrder x.1 y.1 = true)
    (apart : kind = .firstValue ∨ kind = .lastValue → (rows.map (·.1)).Nodup) :
    fresh.TakesIn rows := by
  have clean := reset_of_create created
  have separable : fresh.Separable (scalarRows rows) := by
    apply separable_of_create created
    · exact List.pairwise_map.2 ordered
    · intro positional
      have distinct := apart positional
      rw [← map_fst_scalarRows] at distinct
      exact List.pairwise_map.1 distinct
  have added := addRows_eq (byRow_of_create created ⟨merges.1, merges.2.1⟩)
    (rows.map (·.1)) ⟨type, rows.map (·.2)⟩ (by simp [Column.scalars])
    (numeric_of_create created) (by rw [zip_scalars]; exact separable)
  rw [zip_scalars] at added
  refine ⟨_, added, reflects_absorbAll (mergeable_of_create created merges) clean separable, ?_⟩
  rw [reset_absorbAll, clean]

end Accumulator

namespace Relay
variable {type : ScalarType} {fresh : Accumulator}
open Accumulator

theorem partsRows_cons (part : Relay type) (rest : List (Relay type)) :
    (partsGroups (part :: rest)).flatten = part.rows ++ (partsGroups rest).flatten := by
  rw [partsGroups, List.flatten_append]
  rfl

mutual

/-- If the rows of every group are reflected by what they come to, so are all of them
together at the top. -/
theorem gathers_gather (relay : Relay type) (mergeable : fresh.mergeable = true)
    (clean : fresh.reset = fresh) (each : ∀ rows ∈ relay.groups, fresh.TakesIn rows)
    (distinguishes : fresh.Distinguishes (scalarRows relay.rows)) :
    ∃ top, relay.gather fresh = .ok top ∧ fresh.Gathers (scalarRows relay.rows) top := by
  cases relay with
  | group rows =>
    obtain ⟨top, added, gathers⟩ := each rows (by simp [groups])
    refine ⟨top, ?_, ?_⟩
    · rw [gather]
      exact added
    · simpa [Relay.rows, groups] using gathers
  | place parts =>
    rw [gather]
    rw [Relay.rows, groups] at distinguishes ⊢
    have nothing : fresh.Gathers [] fresh := ⟨reflects_nil mergeable clean, clean⟩
    exact gathers_gatherParts parts mergeable clean nothing (by simpa [groups] using each)
      distinguishes

theorem gathers_gatherParts (parts : List (Relay type)) (mergeable : fresh.mergeable = true)
    (clean : fresh.reset = fresh) {acc : Accumulator} {before : List (Timestamp × Scalar)}
    (gathers : fresh.Gathers before acc) (each : ∀ rows ∈ partsGroups parts, fresh.TakesIn rows)
    (distinguishes : fresh.Distinguishes (before ++ scalarRows (partsGroups parts).flatten)) :
    ∃ last, gatherParts fresh acc parts = .ok last ∧
      fresh.Gathers (before ++ scalarRows (partsGroups parts).flatten) last := by
  cases parts with
  | nil =>
    refine ⟨acc, by rw [gatherParts], ?_⟩
    simpa [partsGroups, scalarRows] using gathers
  | cons part rest =>
    rw [partsRows_cons, scalarRows_append, ← List.append_assoc] at distinguishes ⊢
    have upTo := distinguishes.fewer (List.sublist_append_left _ _)
    obtain ⟨other, gathered, brings⟩ := gathers_gather part mergeable clean
      (fun rows member => each rows (by simp [partsGroups, member]))
      (upTo.fewer (List.sublist_append_right _ _))
    obtain ⟨merged, added, reflects, same⟩ := reflects_addPartial gathers.1 brings.1
      (gathers.2.trans brings.2.symm) (by
        rw [← distinguishes_reset, gathers.2]
        exact upTo)
    obtain ⟨last, further, all⟩ := gathers_gatherParts rest mergeable clean
      ⟨reflects, same.trans gathers.2⟩
      (fun rows member => each rows (by simp [partsGroups, member])) distinguishes
    refine ⟨last, ?_, all⟩
    rw [gatherParts, gathered]
    simp only [added]
    exact further

end

/-- Every function whose partial results can be put together comes to the same over all
rows, be they given at once, in scan order, or group by group over any arrangement of
places. For a first or last value no two rows may share a time. -/
theorem gather_eq_addRows {kind : AggregationKind}
    (merges : kind ≠ .sum ∧ kind ≠ .avg ∧ kind ≠ .extreme) (scan : Scan) (relay : Relay type)
    (ordered : ∀ rows ∈ relay.groups, rows.Pairwise fun x y => scan.inOrder x.1 y.1 = true)
    (apart : kind = .firstValue ∨ kind = .lastValue → (relay.rows.map (·.1)).Nodup)
    {sorted : List (Timestamp × Option type.Value)} (perm : sorted.Perm relay.rows)
    (inOrder : sorted.Pairwise fun x y => scan.inOrder x.1 y.1 = true) :
    ∃ fresh whole, create kind type scan = .ok fresh ∧ relay.gather fresh = .ok whole ∧
      fresh.addRows (sorted.map (·.1)) ⟨type, sorted.map (·.2)⟩ = .ok whole := by
  obtain ⟨fresh, created⟩ : ∃ fresh, create kind type scan = .ok fresh := by
    cases kind <;> simp_all [create, AggregationKind.needsNumbers]
  have distinguishes : fresh.Distinguishes (scalarRows relay.rows) := by
    constructor
    · intro row member
      obtain ⟨_, _, rfl⟩ := List.mem_map.1 member
      exact takes_of_create created
    · intro byTime
      rw [map_fst_scalarRows]
      exact apart (byTime_of_create created byTime)
  have each : ∀ rows ∈ relay.groups, fresh.TakesIn rows := by
    intro rows member
    apply takesIn_of_create created merges (ordered rows member)
    intro positional
    have part : List.Sublist rows relay.rows := List.sublist_flatten_of_mem member
    exact (apart positional).sublist (part.map _)
  obtain ⟨whole, gathered, reflects, same⟩ := gathers_gather relay
    (mergeable_of_create created merges) (reset_of_create created) each distinguishes
  obtain ⟨once, added, reflects', same'⟩ := takesIn_of_create created merges inOrder
    fun positional => ((perm.map _).nodup_iff).2 (apart positional)
  have equal : whole = once := by
    apply eq_of_reflects reflects reflects' (same.trans same'.symm)
    · rw [← distinguishes_reset, same]
      exact distinguishes
    · exact (perm.map _).symm
  exact ⟨fresh, whole, created, gathered, equal ▸ added⟩

/-- Three groups whose times lie among each other, one without a value and one without
rows, on two levels. -/
def spread : Relay .int64 :=
  .place [.place [.group [(9, none), (4, some 1)], .group [(7, some 2), (5, some 3)]],
    .group [], .place [], .group [(6, none)]]

/-- The last value is the one at 7, though 9 is met first. -/
theorem gather_spread :
    (∀ rows ∈ spread.groups, rows.Pairwise fun x y => Scan.descending.inOrder x.1 y.1 = true) ∧
    (spread.rows.map (·.1)).Nodup ∧
    ([(9, none), (7, some 2), (6, none), (5, some 3), (4, some 1)] :
      List (Timestamp × Option ScalarType.int64.Value)).Perm spread.rows ∧
    ∃ fresh whole, create .lastValue .int64 .descending = .ok fresh ∧
      spread.gather fresh = .ok whole ∧
      fresh.addRows [9, 7, 6, 5, 4] ⟨.int64, [none, some 2, none, some 3, some 1]⟩ = .ok whole := by
  have ordered : ∀ rows ∈ spread.groups,
      rows.Pairwise fun x y => Scan.descending.inOrder x.1 y.1 = true := by decide
  have apart : (spread.rows.map (·.1)).Nodup := by decide
  have perm : ([(9, none), (7, some 2), (6, none), (5, some 3), (4, some 1)] :
      List (Timestamp × Option ScalarType.int64.Value)).Perm spread.rows := by decide
  have merges : AggregationKind.lastValue ≠ .sum ∧ AggregationKind.lastValue ≠ .avg ∧
    AggregationKind.lastValue ≠ .extreme := by decide
  obtain ⟨fresh, whole, created, gathered, added⟩ :=
    gather_eq_addRows merges .descending spread ordered (fun _ => apart) perm (by decide)
  simp only [List.map_cons, List.map_nil] at added
  exact ⟨ordered, apart, perm, fresh, whole, created, gathered, added⟩

end Relay
end WindowFold
