import WindowFold.Proofs.Closing
import WindowFold.Proofs.Jobs

/-! An aggregation done in two phases. The columns of the partial results lie
side by side, and the closing aggregators read each its own. -/
namespace WindowFold

/-- The columns of a partial result. -/
def AggregationKind.partialWidth : AggregationKind → Nat
  | avg | firstValue | lastValue => 2
  | _ => 1

/-- Spans of columns with these widths, side by side. -/
def spans : Nat → List Nat → List (List Nat)
  | _, [] => []
  | first, width :: rest => List.range' first width :: spans (first + width) rest

theorem spans_read {α : Type} (before : List α) (parts : List (List α)) :
    (spans before.length (parts.map List.length)).map (fun columns =>
      columns.map fun c => (before ++ parts.flatten)[c]?) =
        parts.map fun part => part.map some := by
  induction parts generalizing before with
  | nil => rfl
  | cons part rest ih =>
    have later := ih (before ++ part)
    rw [List.length_append, List.append_assoc] at later
    rw [List.map_cons, spans, List.map_cons, List.flatten_cons, later, List.map_cons]
    congr 1
    apply List.ext_getElem
    · simp
    · intro i _ inside
      have inside : i < part.length := by simpa using inside
      simp [List.getElem?_append, inside]

theorem Row.cell_eq (r : Row) {c : Nat} {s : Scalar}
    (there : (.int64 r.time :: r.values : List Scalar)[c]? = some s) : r.cell c = s := by
  cases c with
  | zero => simpa [Row.cell] using there
  | succ c =>
    rw [List.getElem?_cons_succ] at there
    rw [Row.cell, List.getD_eq_getElem?_getD, there]
    rfl

theorem Row.map_cell (r : Row) {columns : List Nat} {part : List Scalar}
    (read : columns.map ((.int64 r.time :: r.values : List Scalar)[·]?) = part.map some) :
    columns.map r.cell = part := by
  rw [← List.map_id part]
  exact map_eq_map_iff.2 ((map_eq_map_iff.1 read).imp fun _ _ there => r.cell_eq there)

namespace Accumulator
variable {kind : AggregationKind} {type : ScalarType} {scan : Scan} {acc : Accumulator}

theorem length_partialTypes_of_create (created : create kind type scan = .ok acc) :
    acc.partialTypes.length = kind.partialWidth := by
  unfold create at created
  split at created
  · contradiction
  cases created
  cases kind <;> rfl

/-- Of the first column of its partial results the same accumulator is made. -/
theorem create_partial (created : create kind type scan = .ok acc)
    (mergeable : acc.mergeable = true) :
    ∃ first rest, acc.partialTypes = first :: rest ∧ create kind first scan = .ok acc := by
  unfold create at created
  split at created
  · contradiction
  cases created
  cases kind with
  | sum | avg | extreme => contradiction
  | count | minTime | maxTime => exact ⟨.int64, [], rfl, rfl⟩
  | minValue | maxValue => exact ⟨type, [], rfl, rfl⟩
  | firstValue | lastValue => exact ⟨type, [.int64], rfl, rfl⟩

theorem mergeable_of_create (created : create kind type scan = .ok acc)
    (merges : kind ≠ .sum ∧ kind ≠ .avg ∧ kind ≠ .extreme) : acc.mergeable = true := by
  unfold create at created
  split at created
  · contradiction
  cases created
  cases kind <;> simp_all [mergeable]

theorem byTime_of_create (created : create kind type scan = .ok acc) (byTime : acc.byTime = true) :
    kind = .firstValue ∨ kind = .lastValue := by
  unfold create at created
  split at created
  · contradiction
  cases created
  cases kind <;> simp_all [Accumulator.byTime]

theorem length_partialResult (acc : Accumulator) :
    acc.partialResult.length = acc.partialTypes.length := by cases acc <;> rfl

end Accumulator

namespace Aggregator

/-- The aggregator of the first phase. -/
def opening (a : Aggregator) : Aggregator := { a with step := .opening }

/-- An aggregator of the second phase, for the same function over partial results. -/
structure Closes (c a : Aggregator) : Prop where
  step : c.step = .closing
  accumulator : c.accumulator = a.accumulator
  scan : c.scan = a.scan

variable {spec : AggregationSpec} {schema other : Schema} {scan : Scan} {a : Aggregator}

theorem Suits.opening {types : List ScalarType} {rows : List Row}
    (suits : a.Suits types scan rows) :
    a.opening.Suits types scan rows :=
  { suits with readsRows := rfl }

theorem create_step (created : create spec schema scan = .ok a) {step : AggregationStep}
    (same : step.readsRows = spec.step.readsRows) :
    create { spec with step := step } schema scan = .ok { a with step := step } := by
  obtain ⟨first, others, field, accumulator, inputs, found, fresh, width, rfl⟩ :=
    create_eq_ok.1 created
  exact create_eq_ok.2 ⟨first, others, field, accumulator, inputs, found, fresh, same ▸ width, rfl⟩

/-- Over the columns that hold its partial results it is made for the second phase. -/
theorem create_closing (created : create spec schema scan = .ok a)
    (mergeable : a.accumulator.mergeable = true) {columns : List Nat}
    (read : columns.map (other[·]?) = a.opening.outputFields.map some) :
    ∃ c, create { spec with step := .closing, inputs := columns } other scan = .ok c ∧
      c.Closes a ∧ c.inputs = columns := by
  obtain ⟨_, _, fresh, _, _, _, sameScan, _⟩ := of_create created
  obtain ⟨type, rest, types, again⟩ := Accumulator.create_partial fresh mergeable
  have outputs : a.opening.outputFields.map (·.type) = a.accumulator.partialTypes :=
    a.opening.outputFields_types
  have width : columns.length = a.accumulator.partialTypes.length := by
    simpa [← outputs] using congrArg List.length read
  cases columns with
  | nil => rw [types] at width; contradiction
  | cons first others =>
    cases fields : a.opening.outputFields with
    | nil => rw [fields, types] at outputs; contradiction
    | cons field more =>
      rw [fields, List.map_cons, List.map_cons] at read
      rw [fields, types, List.map_cons] at outputs
      obtain ⟨found, _⟩ := List.cons.inj read
      obtain ⟨rfl, _⟩ := List.cons.inj outputs
      refine ⟨{
        name := spec.name.getD (spec.kind.name ++ "(" ++ field.name ++ ")")
        kind := spec.kind
        step := .closing
        inputs := first :: others
        accumulator := a.accumulator
        scan := scan
        range := .always }, ?_, ⟨rfl, rfl, sameScan.symm⟩, rfl⟩
      simp [create, found, again, AggregationStep.readsRows, width]

/-- The spans of columns in which new aggregators leave their partial results. -/
def partialSpans (fresh : List Aggregator) : List (List Nat) :=
  spans 1 (fresh.map (·.accumulator.partialTypes.length))

theorem partialSpans_fields (fresh : List Aggregator) :
    List.Forall₂ (fun columns a =>
      columns.map ((outputSchema (fresh.map opening))[·]?) = a.opening.outputFields.map some)
      (partialSpans fresh) fresh := by
  have widths : fresh.map (·.accumulator.partialTypes.length) =
      (fresh.map (·.opening.outputFields)).map List.length := by
    rw [List.map_map]
    refine List.map_congr_left fun a _ => ?_
    exact (congrArg List.length a.opening.outputFields_types).symm.trans (List.length_map ..)
  have read := spans_read [Block.timeField] (fresh.map (·.opening.outputFields))
  rw [← widths, List.map_map] at read
  rw [outputSchema, List.flatMap_map, List.flatMap_def]
  exact map_eq_map_iff.1 read

end Aggregator
end WindowFold
