import WindowFold.Proofs.Division
import WindowFold.Proofs.WindowQueries

/-! A query over several children, done in two phases: the partial results of
each child, and a merge of these. It gives the rows that the query gives in one
phase over the rows of all children together. -/
namespace WindowFold

namespace AggregationSpec

def opening (spec : AggregationSpec) : AggregationSpec := { spec with step := .opening }

def closing (spec : AggregationSpec) (columns : List Nat) : AggregationSpec :=
  { spec with step := .closing, inputs := columns }

/-- Each aggregation over the columns of its partial result. -/
theorem exists_closers {specs : List AggregationSpec} {fresh : List Aggregator}
    {schema other : Schema} {scan : Scan} {columns : List (List Nat)}
    (created : List.Forall₂ (fun spec a => Aggregator.create spec schema scan = .ok a ∧
      a.accumulator.mergeable = true) specs fresh)
    (read : List.Forall₂ (fun columns a =>
      columns.map (other[·]?) = (Aggregator.opening a).outputFields.map some) columns fresh) :
    ∃ closers, List.Forall₂ (fun spec c => Aggregator.create spec other scan = .ok c)
        (List.zipWith closing specs columns) closers ∧
      List.Forall₂ Aggregator.Closes closers fresh ∧ closers.map (·.inputs) = columns := by
  induction created generalizing columns with
  | nil =>
    cases read
    exact ⟨[], .nil, .nil, rfl⟩
  | cons first _ ih =>
    cases read with
    | cons there others =>
      obtain ⟨closers, made, closes, inputs⟩ := ih others
      obtain ⟨c, new, same, own⟩ := Aggregator.create_closing first.1 first.2 there
      exact ⟨c :: closers, .cons new made, .cons same closes, by rw [List.map_cons, own, inputs]⟩

end AggregationSpec

namespace Query

def opening (q : Query) : Query :=
  { q with aggregations := q.aggregations.map (·.opening) }

/-- The second phase of a query. Windows cut short keep their rows, as they do
in the first one. -/
def closing (q : Query) : Query :=
  { q with
    aggregations := List.zipWith AggregationSpec.closing q.aggregations
      (spans 1 (q.aggregations.map (·.kind.partialWidth)))
    keepsClipped := true }

variable {q : Query} {schema : Schema} {openers fresh : List Aggregator}

theorem exists_fresh (made : q.opening.aggregators schema = .ok openers)
    (single : ∀ spec ∈ q.aggregations, spec.step = .single) :
    ∃ fresh, q.aggregators schema = .ok fresh ∧ openers = fresh.map (·.opening) := by
  obtain ⟨some, created⟩ := aggregators_eq_ok.1 made
  rw [opening, List.forall₂_map_left_iff] at created
  refine ⟨openers.map fun a => { a with step := .single },
    aggregators_eq_ok.2 ⟨fun none => some (by rw [opening, none]; rfl), ?_⟩, ?_⟩
  · rw [List.forall₂_map_right_iff]
    refine List.forall₂_iff_zip.2 ⟨created.length_eq, fun {spec a} pair => ?_⟩
    have again := Aggregator.create_step ((List.forall₂_iff_zip.1 created).2 pair)
      (show AggregationStep.single.readsRows = _ from rfl)
    have same : spec = { spec.opening with step := .single } := by
      rw [AggregationSpec.opening, ← single spec (List.of_mem_zip pair).1]
    rw [same]
    exact again
  · rw [List.map_map]
    refine (List.map_id' openers).symm.trans (List.map_congr_left fun a member => ?_)
    obtain ⟨spec, _, created⟩ := exists_left created member
    obtain ⟨_, _, _, _, step, _⟩ := Aggregator.of_create created
    have step : a.step = .opening := step
    rw [Function.comp_apply, Aggregator.opening, ← step]

/-- Over the columns of the first phase the second one is accepted. -/
theorem exists_closers (made : q.aggregators schema = .ok fresh)
    (merges : ∀ spec ∈ q.aggregations, spec.kind ≠ .sum ∧ spec.kind ≠ .avg ∧ spec.kind ≠ .extreme) :
    ∃ closers, q.closing.aggregators (outputSchema (fresh.map (·.opening))) = .ok closers ∧
      List.Forall₂ Aggregator.Closes closers fresh ∧
      closers.map (·.inputs) = Aggregator.partialSpans fresh := by
  obtain ⟨some, created⟩ := aggregators_eq_ok.1 made
  have widths : q.aggregations.map (·.kind.partialWidth) =
      fresh.map (·.accumulator.partialTypes.length) := by
    refine map_eq_map_iff.2 (created.imp fun spec a created => ?_)
    obtain ⟨_, _, new, _⟩ := Aggregator.of_create created
    exact (Accumulator.length_partialTypes_of_create new).symm
  have closing : q.closing.aggregations =
      List.zipWith AggregationSpec.closing q.aggregations (Aggregator.partialSpans fresh) := by
    rw [Query.closing, widths]
    rfl
  have mergeable : List.Forall₂ (fun spec a => Aggregator.create spec schema q.scan = .ok a ∧
      a.accumulator.mergeable = true) q.aggregations fresh := by
    refine List.forall₂_iff_zip.2 ⟨created.length_eq, fun {spec a} pair => ?_⟩
    have created := (List.forall₂_iff_zip.1 created).2 pair
    obtain ⟨_, _, new, _⟩ := Aggregator.of_create created
    exact ⟨created, Accumulator.mergeable_of_create new (merges spec (List.of_mem_zip pair).1)⟩
  obtain ⟨closers, made, closes, inputs⟩ :=
    AggregationSpec.exists_closers mergeable (Aggregator.partialSpans_fields fresh)
  refine ⟨closers, aggregators_eq_ok.2 ⟨fun none => ?_, closing ▸ made⟩, closes, inputs⟩
  rw [closing] at none
  rw [none] at made
  cases made
  cases closes
  exact some (List.forall₂_nil_right_iff.1 created)

theorem mergeStage_eq (context : Context) {schemas : List Schema} {aggregators : List Aggregator}
    {series : WindowSeries} (some : schemas ≠ []) (same : ∀ s ∈ schemas, s = schema)
    (made : q.aggregators schema = .ok aggregators)
    (windows : WindowSeries.ofGrouping? q.grouping q.keepsClipped = .ok series) :
    q.mergeStage context schemas = .ok (.create context aggregators (.start series q.scan)) := by
  obtain ⟨first, rest, rfl⟩ := List.exists_cons_of_ne_nil some
  obtain rfl := same first List.mem_cons_self
  have alike : strangeChild? (first :: rest) = none := by
    rw [strangeChild?, Option.map_eq_none_iff, List.findIdx?_eq_none_iff]
    intro s member
    rw [same s (List.mem_cons_of_mem _ member)]
    simp [Schema.agrees]
  simp only [mergeStage, alike, made, windows]

/-- The children of a merge that is accepted all have the column types of the first. -/
theorem mergeStage_eq_ok {context : Context} {schemas : List Schema} {stage : MergeStage}
    (accepted : q.mergeStage context schemas = .ok stage) :
    ∃ first aggregators series, schemas.head? = some first ∧
      (∀ s ∈ schemas, s.types = Schema.types first) ∧
      q.aggregators first = .ok aggregators ∧
      WindowSeries.ofGrouping? q.grouping q.keepsClipped = .ok series ∧
      stage = .create context aggregators (.start series q.scan) := by
  rw [mergeStage.eq_def] at accepted
  split at accepted
  · contradiction
  next first rest =>
  split at accepted
  · contradiction
  next alike =>
  split at accepted
  · contradiction
  next aggregators made =>
  split at accepted
  · contradiction
  next series windows =>
  refine ⟨first, aggregators, series, rfl, fun s member => ?_, made, windows,
    (Except.ok.inj accepted).symm⟩
  rcases List.mem_cons.1 member with rfl | later
  · rfl
  · rw [strangeChild?, Option.map_eq_none_iff, List.findIdx?_eq_none_iff] at alike
    simpa [Schema.agrees] using alike s later

end Query

/-- A child with rows of its own, and a stage over it for the first phase. -/
structure Origin (q : Query) (schema : Schema) (σ : Type) [Operator σ] where
  child : Tree σ
  context : Context
  stage : WindowStage
  rows : List Row
  pulls : Nat
  sameSchema : child.schema = schema
  accepted : q.opening.windowStage context child.schema = .ok stage
  ordered : q.scan.Ordered rows
  yields : Yields schema.types true pulls rows child

namespace Origin
variable {σ : Type} [Operator σ] {q : Query} {schema : Schema} {o : Origin q schema σ}
  {openers : List Aggregator} {series : WindowSeries}

def tree (o : Origin q schema σ) : Tree σ := .window o.stage o.child

theorem stage_eq (made : q.opening.aggregators schema = .ok openers)
    (windows : WindowSeries.ofGrouping? q.grouping true = .ok series) :
    o.stage = .create o.context openers (.start series q.scan) := by
  obtain ⟨fresh, own, again, met, stage⟩ := Query.windowStage_eq_ok o.accepted
  rw [o.sameSchema, made] at again
  cases again
  cases windows.symm.trans met
  exact stage

theorem tree_schema (made : q.opening.aggregators schema = .ok openers)
    (windows : WindowSeries.ofGrouping? q.grouping true = .ok series) :
    o.tree.schema = outputSchema openers := by
  rw [tree, stage_eq made windows]
  rfl

/-- What the first phase of a child does: its job, and in how many pulls. -/
structure Does (o : Origin q schema σ) (fresh : List Aggregator) (series : WindowSeries)
    (flow : Job × Nat) : Prop where
  scan : flow.1.scan = q.scan
  opens : flow.1.fresh = fresh.map (·.opening)
  rows : flow.1.rows = o.rows
  yields : Yields (outputSchema (fresh.map (·.opening))).types true flow.2
    ((series.scanned q.scan).map flow.1.row) o.tree

variable {fresh : List Aggregator}

theorem exists_does (made : q.opening.aggregators schema = .ok (fresh.map (·.opening)))
    (windows : WindowSeries.ofGrouping? q.grouping true = .ok series)
    (clock : ∀ g ∈ q.grouping, g.OnClock)
    (suits : ∀ a ∈ fresh, a.Suits schema.types q.scan o.rows) :
    ∃ flow, o.Does fresh series flow := by
  have opening : ∀ a ∈ fresh.map (·.opening), a.Suits schema.types q.scan o.rows := by
    intro a member
    obtain ⟨b, listed, rfl⟩ := List.mem_map.1 member
    exact (suits b listed).opening
  let job : Job :=
    ⟨schema.types, q.scan, fresh.map (·.opening), o.rows, o.ordered, o.yields.typed, opening⟩
  have rests := WindowStage.rests_create job o.context clock windows o.yields
  refine ⟨(job, o.pulls + (series.scanned q.scan).length + 1), rfl, rfl, rfl, ?_⟩
  rw [tree, stage_eq made windows]
  exact rests.yields_window

theorem flatMap_rows {origins : List (Origin q schema σ)} {flows : List (Job × Nat)}
    (does : List.Forall₂ (fun o flow => o.Does fresh series flow) origins flows) :
    origins.flatMap (·.rows) = (flows.map (·.1)).flatMap (·.rows) := by
  have same : origins.map (·.rows) = flows.map (·.1.rows) :=
    map_eq_map_iff.2 (does.imp fun _ _ own => own.rows.symm)
  rw [List.flatMap_map, List.flatMap_def, same, ← List.flatMap_def]

theorem opens_of_does {origins : List (Origin q schema σ)} {flows : List (Job × Nat)}
    (does : List.Forall₂ (fun o flow => o.Does fresh series flow) origins flows) :
    ∀ job ∈ flows.map (·.1), job.scan = q.scan ∧ job.fresh = fresh.map (·.opening) := by
  intro job listed
  obtain ⟨flow, inside, rfl⟩ := List.mem_map.1 listed
  obtain ⟨_, _, own⟩ := exists_left does inside
  exact ⟨own.scan, own.opens⟩

section
variable {origins : List (Origin q schema σ)}

theorem rows_sublist (listed : o ∈ origins) :
    List.Sublist o.rows (origins.flatMap (·.rows)) := by
  rw [List.flatMap_def]
  exact List.sublist_flatten_of_mem (List.mem_map_of_mem listed)

theorem typed {rows : List Row} (together : rows.Perm (origins.flatMap (·.rows))) :
    ∀ r ∈ rows, r.types = schema.types := by
  intro r inside
  obtain ⟨o, _, own⟩ := List.mem_flatMap.1 (together.mem_iff.1 inside)
  exact o.yields.typed r own

end

end Origin

namespace MergeStage
variable {σ : Type} [Operator σ]

theorem rests_create (job : Confluence) (context : Context) {grouping : Option Grouping}
    (clock : ∀ g ∈ grouping, g.OnClock) {keepsClipped : Bool} {series : WindowSeries}
    (made : WindowSeries.ofGrouping? grouping keepsClipped = .ok series) {children : List (Tree σ)}
    {flows : List ((Window → Row) × Nat)} (parts : flows.map (·.1) = job.parts)
    (yields : List.Forall₂ (fun child flow =>
      Yields job.types true flow.2 ((series.scanned job.scan).map flow.1) child) children flows) :
    (create context job.fresh (.start series job.scan)).Rests job (children.map .create) flows where
  stands := {
    scan := rfl
    turn := WindowSeries.inTurn job.scan clock made
    fresh := fun _ => rfl
    idle := rfl
    running := rfl }
  parts := parts
  holds := ⟨[], RowBuffer.holds_create _ _⟩
  owing := List.forall₂_map_left_iff.2
    (yields.imp fun _ _ yields => ⟨_, rfl, nofun, nofun, fun _ => yields⟩)

end MergeStage

namespace Query
variable {q : Query} {schema : Schema}

/-- The job of a query over all rows, divided among its first phases. -/
theorem divided {one : Job} {jobs : List Job} {closers : List Aggregator}
    (made : q.aggregators schema = .ok one.fresh)
    (single : ∀ spec ∈ q.aggregations, spec.step = .single)
    (merges : ∀ spec ∈ q.aggregations, spec.kind ≠ .sum ∧ spec.kind ≠ .avg ∧ spec.kind ≠ .extreme)
    (apart : ∀ spec ∈ q.aggregations, spec.kind = .firstValue ∨ spec.kind = .lastValue →
      one.rows.Pairwise fun r s => r.time ≠ s.time)
    (opening : ∀ job ∈ jobs, job.scan = one.scan ∧ job.fresh = one.fresh.map (·.opening))
    (rows : one.rows.Perm (jobs.flatMap (·.rows)))
    (closing : List.Forall₂ Aggregator.Closes closers one.fresh)
    (inputs : closers.map (·.inputs) = Aggregator.partialSpans one.fresh) :
    Divided one jobs closers where
  opening := opening
  rows := rows
  single a listed := by
    obtain ⟨spec, inside, created⟩ := exists_left (aggregators_eq_ok.1 made).2 listed
    obtain ⟨_, _, _, _, step, _⟩ := Aggregator.of_create created
    exact step.trans (single spec inside)
  mergeable a listed := by
    obtain ⟨spec, inside, created⟩ := exists_left (aggregators_eq_ok.1 made).2 listed
    obtain ⟨_, _, new, _⟩ := Aggregator.of_create created
    exact Accumulator.mergeable_of_create new (merges spec inside)
  apart a listed byTime := by
    obtain ⟨spec, inside, created⟩ := exists_left (aggregators_eq_ok.1 made).2 listed
    obtain ⟨_, _, new, _⟩ := Aggregator.of_create created
    exact List.pairwise_map.2 (apart spec inside (Accumulator.byTime_of_create new byTime))
  closing := closing
  inputs := inputs

/-- A query in two phases, driven to its end, gives what it gives in one phase
over all rows. -/
theorem drive_mergeStage {σ : Type} [Operator σ] {origins : List (Origin q schema σ)}
    {rows : List Row} (context : Context) (some : origins ≠ [])
    (clock : ∀ g ∈ q.grouping, g.OnClock)
    (single : ∀ spec ∈ q.aggregations, spec.step = .single)
    (merges : ∀ spec ∈ q.aggregations, spec.kind ≠ .sum ∧ spec.kind ≠ .avg ∧ spec.kind ≠ .extreme)
    (together : rows.Perm (origins.flatMap (·.rows))) (ordered : q.scan.Ordered rows)
    (apart : ∀ spec ∈ q.aggregations, spec.kind = .firstValue ∨ spec.kind = .lastValue →
      rows.Pairwise fun r s => r.time ≠ s.time) :
    ∃ series merge blocks needed outputs,
      WindowSeries.ofGrouping? q.grouping true = .ok series ∧
      q.closing.mergeStage context (origins.map (·.tree.schema)) = .ok merge ∧
      (∀ rounds, drive rounds (Tree.merge merge (origins.map fun o => Inlet.create o.tree)) =
        .ok (if needed < rounds then Option.some blocks else none)) ∧
      (series.scanned q.scan).mapM (q.windowRow schema rows) = .ok outputs ∧
      blocks.flatMap Block.rows = outputs := by
  obtain ⟨first, _⟩ := List.exists_mem_of_ne_nil origins some
  obtain ⟨openers, series, opened, windows, _⟩ := windowStage_eq_ok first.accepted
  rw [first.sameSchema] at opened
  obtain ⟨fresh, made, rfl⟩ := exists_fresh opened single
  obtain ⟨closers, closed, closes, inputs⟩ := exists_closers made merges
  have suits : ∀ part, q.scan.Ordered part → (∀ spec ∈ q.aggregations,
      spec.kind = .firstValue ∨ spec.kind = .lastValue → part.Pairwise fun r s => r.time ≠ s.time) →
      ∀ a ∈ fresh, a.Suits schema.types q.scan part := fun part ordered apart =>
    suits_of_aggregators made (fun spec listed => by rw [single spec listed]; rfl)
      (fun spec listed => ⟨(merges spec listed).1, (merges spec listed).2.1⟩) apart ordered
  have does : ∀ o ∈ origins, ∃ flow, o.Does fresh series flow := by
    intro o member
    refine Origin.exists_does opened windows clock (suits o.rows o.ordered ?_)
    intro spec listed places
    exact ((together.pairwise_iff Ne.symm).1 (apart spec listed places)).sublist
      (Origin.rows_sublist member)
  obtain ⟨flows, related⟩ := exists_forall₂ does
  let one : Job := ⟨schema.types, q.scan, fresh, rows, ordered, Origin.typed together,
    suits rows ordered apart⟩
  have divided : Divided one (flows.map (·.1)) closers :=
    Query.divided made single merges apart (Origin.opens_of_does related)
      (Origin.flatMap_rows related ▸ together) closes inputs
  let job := divided.confluence
  have parts : (flows.map fun flow => (flow.1.row, flow.2)).map (·.1) = job.parts := by
    change _ = (flows.map (·.1)).map Job.row
    rw [List.map_map, List.map_map]
    rfl
  have schemas : ∀ s ∈ origins.map (·.tree.schema),
      s = outputSchema (fresh.map (·.opening)) := by
    intro s listed
    obtain ⟨o, _, rfl⟩ := List.mem_map.1 listed
    exact o.tree_schema opened windows
  have accepted := mergeStage_eq context (by simpa using some) schemas closed windows
  have yields : List.Forall₂ (fun child (flow : (Window → Row) × Nat) =>
      Yields job.types true flow.2 ((series.scanned job.scan).map flow.1) child)
      (origins.map (·.tree)) (flows.map fun flow => (flow.1.row, flow.2)) := by
    rw [List.forall₂_map_left_iff, List.forall₂_map_right_iff]
    exact related.imp fun _ _ own => own.yields
  have rests := MergeStage.rests_create job context clock windows parts yields
  obtain ⟨blocks, needed, driven, given, _⟩ := rests.yields_merge.drive_eq
  refine ⟨series, _, blocks, needed, _, windows, accepted, ?_, mapM_eq_ok.2 ?_, given⟩
  · rw [List.map_map] at driven
    exact driven
  · change List.Forall₂ _ (series.scanned q.scan) ((series.scanned q.scan).map one.row)
    rw [List.forall₂_map_right_iff, List.forall₂_same]
    exact fun w _ => windowRow_eq one rfl rfl made w

/-- Windows of ten from 0 to 30, the last without rows. -/
def spread : Query where
  aggregations := [⟨.count, .single, [1], none⟩, ⟨.maxValue, .single, [1], none⟩,
    ⟨.firstValue, .single, [1], some "first"⟩]
  grouping := some ⟨0, 30, .millis 10, none, true⟩
  scan := .ascending
  keepsClipped := true

/-- What one child answers: two blocks, and a wait between them. -/
def spreadAnswers : List Answer :=
  [.block (sampleBlock [3, 7] [some 5, none] rfl), .notReady,
    .block (sampleBlock [12] [some 1] rfl)]

def answering : Origin spread sampleEmpty.schema Source where
  child := .source (.script (.create "answering" sampleEmpty.schema
    (spreadAnswers.map .answer) none))
  context := .standard
  stage := _
  rows := spreadAnswers.flatMap Answer.rows
  pulls := spreadAnswers.length + 1
  sameSchema := rfl
  accepted := rfl
  ordered := by decide
  yields := by
    refine Yields.map Tree.embeds_source (Yields.map Source.embeds_script ?_)
    refine Script.yields rfl (by decide) fun b member => ?_
    simp only [spreadAnswers, List.mem_cons, List.not_mem_nil, or_false] at member
    rcases member with same | same | same <;> cases same <;> rfl

def held : Replay :=
  ⟨"holding", sampleEmpty.schema, [sampleBlock [5, 15] [some 9, some 4] rfl], false⟩

def holding : Origin spread sampleEmpty.schema Source where
  child := .source (.replay held)
  context := .standard
  stage := _
  rows := held.blocks.flatMap Block.rows
  pulls := held.blocks.length + 1
  sameSchema := rfl
  accepted := rfl
  ordered := by decide
  yields := by
    refine Yields.map Tree.embeds_source (Yields.map Source.embeds_replay ?_)
    refine Replay.yields (r := held) rfl ?_
    intro b member
    rw [List.mem_singleton.1 member]
    rfl

def spreadRows : List Row :=
  [⟨3, [.int64 5]⟩, ⟨5, [.int64 9]⟩, ⟨7, [.null .int64]⟩, ⟨12, [.int64 1]⟩, ⟨15, [.int64 4]⟩]

theorem drive_mergeStage_spread :
    ∃ series merge blocks needed outputs,
      WindowSeries.ofGrouping? spread.grouping true = .ok series ∧
      spread.closing.mergeStage .standard ([answering, holding].map (·.tree.schema)) = .ok merge ∧
      (∀ rounds, drive rounds (Tree.merge merge
        ([answering, holding].map fun o => Inlet.create o.tree)) =
          .ok (if needed < rounds then some blocks else none)) ∧
      (series.scanned spread.scan).mapM
        (spread.windowRow (sampleBlock [] [] rfl).schema spreadRows) = .ok outputs ∧
      blocks.flatMap Block.rows = outputs :=
  drive_mergeStage .standard (by simp) (by simp [spread, Grouping.OnClock]; decide) (by decide)
    (by decide) (by decide) (by decide) (by decide)

end Query
end WindowFold
