import WindowFold.Operator.Source
import WindowFold.Proofs.Clipping
import WindowFold.Proofs.MergeQueries
import WindowFold.Proofs.MergeRounds
import WindowFold.Proofs.WindowAnswers

/-! A merge that leaves out the window which the end of the query cuts short. Its
children give a row for that window all the same. In an ascending scan the row is
never reached; in a descending one it comes first, and it is passed over only if
it comes in one block with the next row. -/
namespace WindowFold

/-- A child of the merge of a query: a window stage with the same windows, over a
source with known answers, that comes to its end with these blocks. -/
structure Feeder (q : Query) (σ : Type) [Operator σ] where
  query : Query
  context : Context
  source : Tree σ
  answers : List Answer
  stage : WindowStage
  pulls : Nat
  blocks : List Block
  sameGrouping : query.grouping = q.grouping
  sameScan : query.scan = q.scan
  accepted : query.windowStage context source.schema = .ok stage
  plays : Plays answers source
  driven : drive pulls (Tree.window stage source) = .ok (some blocks)

namespace Feeder
variable {σ : Type} [Operator σ] {q : Query} {f : Feeder q σ}

def tree (f : Feeder q σ) : Tree σ := .window f.stage f.source

def inlet (f : Feeder q σ) : Inlet (Tree σ) := .create f.tree

/-- The first block holds more than one row, or there are no other blocks. -/
def opensWide (f : Feeder q σ) : Bool :=
  match f.blocks with
  | first :: _ :: _ => 1 < first.rowCount
  | _ => true

/-- The rows are those of the windows. -/
theorem blocks_spec (f : Feeder q σ) {series : WindowSeries}
    (windows : WindowSeries.ofGrouping? q.grouping true = .ok series) :
    (f.blocks.flatMap Block.rows).map (·.time) = (series.scanned q.scan).map (·.outputTime) ∧
      ∀ block ∈ f.blocks, block.schema.types = f.tree.schema.types ∧ block.rows ≠ [] := by
  obtain ⟨fresh, own, _, met, stage⟩ := Query.windowStage_eq_ok f.accepted
  rw [f.sameGrouping, windows] at met
  obtain rfl := Except.ok.inj met
  have given := WindowStage.of_drive f.driven
  rw [tree, Tree.schema]
  rw [stage, f.sameScan] at given ⊢
  exact given

theorem exists_answers (f : Feeder q σ) :
    ∃ own : List Answer, own.flatMap Answer.blocks = f.blocks ∧ Plays own f.tree := by
  obtain ⟨_, _, _, _, stage⟩ := Query.windowStage_eq_ok f.accepted
  have going : f.stage.inputEnded = false := by rw [stage]; rfl
  obtain ⟨own, same, plays⟩ := WindowStage.plays_of_drive going f.plays f.driven
  exact ⟨own, same, plays f.source f.plays⟩

theorem ordered (f : Feeder q σ) {series : WindowSeries}
    (windows : WindowSeries.ofGrouping? q.grouping true = .ok series)
    (turn : InTurn q.scan (series.scanned q.scan)) :
    ∀ block ∈ f.blocks, q.scan.Ordered block.rows := by
  have times := (f.blocks_spec windows).1
  have all : q.scan.Ordered (f.blocks.flatMap Block.rows) := by
    have real : ∀ w : Window, (Row.mk w.outputTime []).time = w.outputTime := fun _ => rfl
    have sorted : ((f.blocks.flatMap Block.rows).map (·.time)).Pairwise fun t u =>
        q.scan.inOrder t u = true := by
      rw [times]
      exact List.pairwise_map.2 (List.pairwise_map.1 (turn.ordered real))
    exact List.pairwise_map.1 sorted
  intro block member
  refine List.Pairwise.sublist ?_ all
  rw [List.flatMap_def]
  exact List.sublist_flatten_of_mem (List.mem_map_of_mem member)

def queue (f : Feeder q σ) : Queue := ⟨none, f.blocks⟩

theorem fit (f : Feeder q σ) {series : WindowSeries} {types : List ScalarType}
    (windows : WindowSeries.ofGrouping? q.grouping true = .ok series)
    (turn : InTurn q.scan (series.scanned q.scan)) (same : f.tree.schema.types = types) :
    f.queue.Fit types q.scan := by
  intro block member
  exact ⟨((f.blocks_spec windows).2 block member).1.trans same, f.ordered windows turn block member⟩

theorem exists_follows (f : Feeder q σ) {series : WindowSeries} {types : List ScalarType}
    (windows : WindowSeries.ofGrouping? q.grouping true = .ok series)
    (turn : InTurn q.scan (series.scanned q.scan)) (same : f.tree.schema.types = types) :
    ∃ own, f.inlet.Follows types q.scan own ∧ f.inlet.queue own = f.queue := by
  obtain ⟨own, given, plays⟩ := f.exists_answers
  have filled : own.filterMap Answer.filled? = f.blocks := by
    rw [← given]
    apply Answer.filterMap_filled
    intro block member
    exact ((f.blocks_spec windows).2 block (given ▸ member)).2
  have queue : f.inlet.queue own = f.queue := by
    rw [Inlet.queue, filled]
    rfl
  exact ⟨own, ⟨queue ▸ f.fit windows turn same, fun ended => absurd ended Bool.false_ne_true,
    fun _ => plays⟩, queue⟩

theorem exists_second (f : Feeder q σ) {series : WindowSeries} {first second : Window}
    {others : List Window} (windows : WindowSeries.ofGrouping? q.grouping true = .ok series)
    (scanned : series.scanned q.scan = first :: second :: others) (wide : f.opensWide = true) :
    ∃ block rest, f.blocks = block :: rest ∧ ∃ r ∈ block.rows, r.time = second.outputTime := by
  have times := (f.blocks_spec windows).1
  rw [scanned] at times
  cases given : f.blocks with
  | nil =>
    rw [given] at times
    contradiction
  | cons block rest =>
  rw [given, List.flatMap_cons, List.map_append] at times
  have long : 1 < block.rows.length := by
    cases rest with
    | nil =>
      have count := congrArg List.length times
      rw [List.flatMap_nil, List.map_nil, List.append_nil, List.length_map] at count
      simp [count]
    | cons next rest =>
      rw [opensWide, given] at wide
      simpa [Block.rowCount_eq] using wide
  match rows : block.rows with
  | [] | [_] =>
    rw [rows] at long
    contradiction
  | r :: s :: later =>
    rw [rows] at times
    exact ⟨block, rest, rfl, s, by simp [rows], (List.cons.inj (List.cons.inj times).2).1⟩

/-- In a descending scan a wide first block reaches past the window cut short. -/
theorem outlasts (f : Feeder q σ) {entire part : WindowSeries} {clipped : List Window}
    (windows : WindowSeries.ofGrouping? q.grouping true = .ok entire)
    (split : entire.toList = part.toList ++ clipped) (one : clipped.length ≤ 1)
    (turn : InTurn q.scan (entire.scanned q.scan)) (down : q.scan = .descending)
    (more : part.toList ≠ []) (wide : f.opensWide = true) {w : Window} (cut : w ∈ clipped) :
    f.queue.Outlasts w.range q.scan := by
  obtain rfl : clipped = [w] := by
    obtain ⟨v, rfl⟩ := List.length_eq_one_iff.1 (Nat.le_antisymm one (List.length_pos_of_mem cut))
    rw [List.mem_singleton.1 cut]
  obtain ⟨next, others, whole⟩ := List.exists_cons_of_ne_nil (List.reverse_ne_nil_iff.2 more)
  have scanned : entire.scanned q.scan = w :: next :: others := by
    rw [down, WindowSeries.scanned, split, List.reverse_append, whole]
    rfl
  obtain ⟨block, rest, blocks, r, member, time⟩ := f.exists_second windows scanned wide
  refine ⟨block, by rw [queue, blocks]; rfl, Block.isEmpty_skipPast member ?_⟩
  rw [Row.past, time]
  rw [scanned] at turn
  exact turn.past List.mem_cons_self

end Feeder

namespace Query
variable {σ : Type} [Operator σ] {q : Query}

def keeping (q : Query) (keepsClipped : Bool) : Query := { q with keepsClipped := keepsClipped }

theorem gathers_of_aggregators {schema : Schema} {fresh : List Aggregator}
    (made : q.aggregators schema = .ok fresh)
    (partials : ∀ spec ∈ q.aggregations, spec.step.readsRows = false) :
    ∀ a ∈ fresh, a.Gathers schema.types q.scan := by
  intro a member
  obtain ⟨spec, listed, created⟩ := exists_left (aggregators_eq_ok.1 made).2 member
  exact Aggregator.gathers_of_create created (partials spec listed)

/-- Driven to its end, a merge without a row for the window cut short gives the
rows that it gives with one, up to that row. In a descending scan with such a window
this needs that no child gives its row of it in a block of its own. -/
theorem drive_unclipped {feeders : List (Feeder q σ)} {context : Context}
    {flagged unflagged : MergeStage} {pulls : Nat} {blocks : List Block}
    (clock : ∀ g ∈ q.grouping, g.OnClock)
    (partials : ∀ spec ∈ q.aggregations, spec.step.readsRows = false)
    (kept : (q.keeping true).mergeStage context (feeders.map (·.tree.schema)) = .ok flagged)
    (dropped : (q.keeping false).mergeStage context (feeders.map (·.tree.schema)) = .ok unflagged)
    (driven : drive pulls (Tree.merge flagged (feeders.map Feeder.inlet)) = .ok (some blocks))
    (wide : q.scan = .descending → unflagged.cursor.series.count < flagged.cursor.series.count →
      ∀ f ∈ feeders, f.opensWide = true) :
    ∃ clipped cut others needed,
      flagged.cursor.series.toList = unflagged.cursor.series.toList ++ clipped ∧
      clipped.length ≤ 1 ∧ cut.map (·.time) = clipped.map (·.outputTime) ∧
      (∀ pulls, drive pulls (Tree.merge unflagged (feeders.map Feeder.inlet)) =
        .ok (if needed < pulls then some others else none)) ∧
      blocks.flatMap Block.rows = q.scan.arrange (others.flatMap Block.rows) cut := by
  obtain ⟨first, fresh, entire, head, alike, made, windows, rfl⟩ := mergeStage_eq_ok kept
  obtain ⟨other, again, part, head', _, made', fewer, rfl⟩ := mergeStage_eq_ok dropped
  obtain rfl : first = other := Option.some.inj (head.symm.trans head')
  obtain rfl : fresh = again := Except.ok.inj (made.symm.trans made')
  have gather := gathers_of_aggregators made partials
  have turn := WindowSeries.inTurn q.scan clock windows
  have sorts : ∀ f ∈ feeders, f.tree.schema.types = Schema.types first := fun f member =>
    alike _ (List.mem_map_of_mem member)
  obtain ⟨flows, follow⟩ := exists_forall₂ fun f (member : f ∈ feeders) =>
    f.exists_follows windows turn (sorts f member)
  have starts := fun series => MergeStage.follows_create context fresh series
    (List.forall₂_map_left_iff.2 (follow.imp fun _ _ own => own.1))
  have queued : MergeStage.queues (feeders.map Feeder.inlet) flows = feeders.map Feeder.queue := by
    rw [MergeStage.queues, List.zipWith_map_left]
    exact zipWith_eq_map (follow.imp fun _ _ own => own.2)
  have fit : ∀ queue ∈ feeders.map Feeder.queue, queue.Fit (Schema.types first) q.scan :=
    List.forall_mem_map.2 fun f member => f.fit windows turn (sorts f member)
  obtain ⟨clipped, split, one⟩ := WindowSeries.toList_split windows fewer
  have outlast : q.scan = .descending → part.toList ≠ [] → ∀ w ∈ clipped,
      ∀ queue ∈ feeders.map Feeder.queue, queue.Outlasts w.range q.scan := by
    intro down more w cut
    have longer := WindowSeries.count_lt split cut
    exact List.forall_mem_map.2 fun f member =>
      f.outlasts windows split one turn down more (wide down longer f member) cut
  have all := (starts entire).rounds_of_drive gather driven
  rw [queued] at all
  obtain ⟨rows, cut, some, last, same⟩ :=
    MergeStage.rounds_unclipped split one gather fit turn outlast all
  obtain ⟨others, needed, drives, own⟩ := (starts part).drive_eq gather (by rw [queued]; exact some)
  exact ⟨clipped, cut, others, needed, split, one, last, drives, by rw [own]; exact same⟩

def backwards : Query where
  aggregations := [⟨.count, .closing, [1], none⟩]
  grouping := some ⟨0, 25, .millis 10, none, true⟩
  scan := .descending
  keepsClipped := true

def latest : Replay :=
  ⟨"latest", sampleEmpty.schema,
    [sampleBlock [22, 15, 3] [some 1, some 2, some 3] rfl], false⟩

def rowsAtMost (rows : Nat) : Context := { Context.standard with limits := ⟨rows, 1000⟩ }

def counted (name : String) (rows : Int) (times : List Timestamp) : Block where
  timeName := "time"
  timeNullable := false
  times := times
  series := [⟨name, true, ⟨.int64, times.map fun _ => some rows⟩⟩]
  aligned := by simp [Column.length]

/-- The first phase gives the rows of the first two windows in one block. -/
def paired : Feeder backwards Source where
  query := { backwards with aggregations := [⟨.count, .opening, [1], none⟩] }
  context := rowsAtMost 2
  source := .source (.replay latest)
  answers := latest.blocks.map .block
  stage := _
  pulls := 4
  blocks := [counted "count(value)" 1 [20, 10], counted "count(value)" 1 [0]]
  sameGrouping := rfl
  sameScan := rfl
  accepted := rfl
  plays := Plays.map Tree.embeds_source (Plays.map Source.embeds_replay (Replay.plays rfl))
  driven := by decide +kernel

def late : Feeder backwards Source :=
  { paired with
    source := .source (.script (.create "late" sampleEmpty.schema
      ((.notReady :: paired.answers).map .answer) none))
    answers := .notReady :: paired.answers
    stage := _
    pulls := 5
    accepted := rfl
    plays := Plays.map Tree.embeds_source (Plays.map Source.embeds_script
      (Script.plays rfl (by decide)))
    driven := by decide +kernel }

theorem drive_unclipped_paired :
    ∃ flagged unflagged blocks,
      (backwards.keeping true).mergeStage (rowsAtMost 2) ([paired, late].map (·.tree.schema)) =
        .ok flagged ∧
      (backwards.keeping false).mergeStage (rowsAtMost 2) ([paired, late].map (·.tree.schema)) =
        .ok unflagged ∧
      drive 6 (Tree.merge flagged ([paired, late].map Feeder.inlet)) = .ok (some blocks) ∧
      ∃ clipped cut others needed,
        flagged.cursor.series.toList = unflagged.cursor.series.toList ++ clipped ∧
        clipped.length ≤ 1 ∧ cut.map (·.time) = clipped.map (·.outputTime) ∧
        (∀ pulls, drive pulls (Tree.merge unflagged ([paired, late].map Feeder.inlet)) =
          .ok (if needed < pulls then some others else none)) ∧
        blocks.flatMap Block.rows = backwards.scan.arrange (others.flatMap Block.rows) cut := by
  refine ⟨_, _, [counted "count(count(value))" 2 [20, 10], counted "count(count(value))" 2 [0]],
    rfl, rfl, ?_⟩
  refine (and_iff_left_of_imp fun driven => ?_).2 ?_
  · refine drive_unclipped ?_ (by decide) rfl rfl driven ?_
    · simp [backwards, Grouping.OnClock]
      decide
    · intro _ _ f listed
      rcases List.mem_pair.1 listed with rfl | rfl <;> rfl
  · decide +kernel

/-- The first phase gives each row in a block of its own. -/
def lone : Feeder backwards Source :=
  { paired with
    context := rowsAtMost 1
    stage := _
    blocks := [[20], [10], [0]].map (counted "count(value)" 1)
    accepted := rfl
    driven := by decide +kernel }

/-- A child that gives the row of the window cut short in a block of its own stays a
window behind from there on. -/
theorem drive_clipped_lone :
    ∃ flagged unflagged,
      (backwards.keeping true).mergeStage (rowsAtMost 1) [lone.tree.schema] = .ok flagged ∧
      (backwards.keeping false).mergeStage (rowsAtMost 1) [lone.tree.schema] = .ok unflagged ∧
      (drive 6 (Tree.merge flagged [lone.inlet])).map (Option.map (·.flatMap Block.rows)) =
        .ok (some [⟨20, [.int64 1]⟩, ⟨10, [.int64 1]⟩, ⟨0, [.int64 1]⟩]) ∧
      (drive 6 (Tree.merge unflagged [lone.inlet])).map (Option.map (·.flatMap Block.rows)) =
        .ok (some [⟨10, [.int64 0]⟩, ⟨0, [.int64 0]⟩]) :=
  ⟨_, _, rfl, rfl, by decide +kernel, by decide +kernel⟩

end Query
end WindowFold
