import WindowFold.Proofs.Buffering
import WindowFold.Proofs.Channels
import WindowFold.Proofs.Planning

/-! A merge right above its channels. Its readiness check stops at the first
channel that waits, also where a block of it is at hand already. If the first of
two channels is the faster one, the second is pulled again before it is asked. -/
namespace WindowFold

structure Channel where
  name : String
  schema : Schema
  capacity : Nat

namespace Channel

def exchange (c : Channel) : Exchange := .create c.name c.schema c.capacity

def inlet (c : Channel) : Inlet (Tree Source) := .create (.channel c.exchange)

end Channel

def fanIn (m : MergeStage) (channels : List Channel) : Tree Source :=
  .merge m (channels.map Channel.inlet)

def oneRow : Block := ⟨"time", false, [0], [], nofun⟩

/-- The first channel is sent a block, and another one after the merge was pulled. -/
def fastFirst (c : Channel) : List Session.Event :=
  [.send c.name oneRow, .turn, .send c.name oneRow, .turn]

namespace MergeStage

/-- A merge between two windows, with windows to come. -/
structure Between (m : MergeStage) : Prop where
  running : m.closed = false
  idle : m.active = none
  more : m.cursor.hasNext = true
  holds : ∃ schema rows, m.buffer.Holds schema rows

variable {m : MergeStage}

theorem Between.hasNext (between : m.Between) : m.hasNext = true := by
  rw [MergeStage.hasNext, between.running, between.more]
  simp

theorem Between.clear (between : m.Between) : Between { m with buffer := m.buffer.clear } := by
  obtain ⟨schema, rows, holds⟩ := between.holds
  exact { between with holds := ⟨schema, [], holds.clear⟩ }

theorem Between.windowsLeft_pos (between : m.Between) :
    ∃ windows, m.windowsLeft = windows + 1 := by
  have more := between.more
  simp only [Cursor.hasNext, decide_eq_true_eq] at more
  refine ⟨m.cursor.series.count - m.cursor.emitted - 1, ?_⟩
  simp only [windowsLeft, between.idle, Cursor.remaining]
  simp
  omega

section
variable {σ : Type} {told : σ → Except Failure Bool} {lanes filled : List (Lane σ)}

variable {scan : Scan} {child after : σ} {lane : Lane σ}

/-- A block at hand is kept. -/
theorem prepare_held (held : lane.inlet.held.isSome) (lanes : List (Lane σ)) :
    prepare told scan (lane :: lanes) =
      ((prepare told scan lanes).1, lane :: (prepare told scan lanes).2) := by
  rw [prepare]
  simp [held]

section
variable (free : lane.inlet = ⟨child, none, true, false⟩) (more : told child = .ok true)
include free more

theorem prepare_block {block : Block} (pulled : lane.pull child = (.ok (.block block), after))
    (some_ : block.isEmpty = false) (ordered : block.checkScanOrder scan = .ok ())
    (lanes : List (Lane σ)) :
    prepare told scan (lane :: lanes) = ((prepare told scan lanes).1,
      { lane with inlet := ⟨after, some block, false, false⟩ } :: (prepare told scan lanes).2) := by
  rw [prepare]
  simp [free, more, pulled, some_, ordered]

theorem prepare_notReady (pulled : lane.pull child = (.ok .notReady, after))
    (lanes : List (Lane σ)) : prepare told scan (lane :: lanes) =
      (.ok false, { lane with inlet := ⟨after, none, false, false⟩ } :: lanes) := by
  rw [prepare]
  simp [free, more, pulled]

theorem prepare_failed {e : Failure} (pulled : lane.pull child = (.error e, after))
    (lanes : List (Lane σ)) : prepare told scan (lane :: lanes) =
      (.error e, { lane with inlet := ⟨after, none, false, false⟩ } :: lanes) := by
  rw [prepare]
  simp [free, more, pulled]

end

/-- A call whose first round does not get past the children closes no window. -/
theorem Between.closeWindows_eq (between : m.Between) {outcome : Except Failure Bool}
    (stops : outcome ≠ .ok true) (prepared : prepare told m.scan lanes = (outcome, filled)) :
    closeWindows told m.windowsLeft { m with buffer := m.buffer.clear } lanes =
      (outcome.map fun _ => (), { m with buffer := m.buffer.clear }, filled) := by
  obtain ⟨windows, left⟩ := between.windowsLeft_pos
  obtain ⟨schema, rows, holds⟩ := between.holds
  have prepared : prepare told (scan { m with buffer := m.buffer.clear }) lanes = _ := prepared
  simp only [left, closeWindows, holds.clear.not_full, Bool.false_eq_true, if_false, prepared]
  rcases outcome with e | (_ | _)
  · rfl
  · rfl
  · exact absurd rfl stops

theorem Between.next_stopped (between : m.Between)
    (prepared : prepare told m.scan (lanes.map fun lane =>
      { lane with inlet := { lane.inlet with mayPull := true } }) = (.ok false, filled)) :
    m.next told lanes =
      (.ok .notReady, { m with buffer := m.buffer.clear }, filled.map (·.inlet)) := by
  obtain ⟨schema, rows, holds⟩ := between.holds
  have more := between.clear.hasNext
  have closing : closeWindows told (windowsLeft { m with buffer := m.buffer.clear }) _ _ = _ :=
    between.closeWindows_eq (by simp) prepared
  rw [next, if_neg (by simp [between.running])]
  simp only [closing, Except.map]
  rw [answer, if_neg (by simp [holds.clear.isEmpty_eq]), if_pos more]

theorem Between.next_failed (between : m.Between) {e : Failure}
    (prepared : prepare told m.scan (lanes.map fun lane =>
      { lane with inlet := { lane.inlet with mayPull := true } }) = (.error e, filled)) :
    (m.next told lanes).1 = .error e := by
  have closing : closeWindows told (windowsLeft { m with buffer := m.buffer.clear }) _ _ = _ :=
    between.closeWindows_eq (by simp) prepared
  rw [next, if_neg (by simp [between.running])]
  simp only [closing, Except.map]

end

end MergeStage

namespace Tree
variable {m : MergeStage} {e f : Exchange} {held : Option Block} {mayPull ended : Bool}
  {others : List (Inlet (Tree Source))}

/-- The others as a call leaves them that comes to an end before it reaches them. -/
def unreached (inlets : List (Inlet (Tree Source))) : List (Inlet (Tree Source)) :=
  inlets.map fun inlet => { inlet with mayPull := true }

theorem apart_unreached {name : String} (apart : Apart name others) :
    Apart name (unreached others) := by
  intro inlet member
  obtain ⟨before, inside, rfl⟩ := List.mem_map.1 member
  exact apart before inside

theorem checkScanOrder_oneRow (scan : Scan) : oneRow.checkScanOrder scan = .ok () := by
  cases scan <;> rfl

def fresh (inlet : Inlet (Tree Source)) : Lane (Tree Source) :=
  ⟨{ inlet with mayPull := true }, fun _ => inlet.child.next⟩

theorem fresh_lanes (inlets : List (Inlet (Tree Source))) :
    ((lanes inlets).map fun lane => { lane with inlet := { lane.inlet with mayPull := true } }) =
      inlets.map fresh := by
  rw [lanes_eq, List.map_map]
  rfl

/-- The merge takes a block of its first channel, and the second has none. -/
theorem next_first (between : m.Between) (idle : e.Idle) (other : f.Idle)
    (asked : f.awaiting = false) (others : List (Inlet (Tree Source))) :
    ∃ g : Exchange, g.Idle ∧ g.name = e.name ∧
      (merge m (⟨channel (e.fetched oneRow), none, true, false⟩ ::
        ⟨channel f, none, true, false⟩ :: others)).next =
      (.ok .notReady, merge { m with buffer := m.buffer.clear }
        (⟨channel g, some oneRow, false, false⟩ ::
          ⟨channel { f with awaiting := true }, none, false, false⟩ :: unreached others)) := by
  obtain ⟨g, given, still, name⟩ := idle.next_fetched oneRow
  refine ⟨g, still, name, ?_⟩
  have nothing : MergeStage.prepare hasNext m.scan
      (fresh ⟨channel f, none, true, false⟩ :: others.map fresh) = (.ok false, _) :=
    MergeStage.prepare_notReady rfl (hasNext_channel other) (next_channel (other.next asked)) _
  have prepared : MergeStage.prepare hasNext m.scan
      (fresh ⟨channel (e.fetched oneRow), none, true, false⟩ ::
        fresh ⟨channel f, none, true, false⟩ :: others.map fresh) = (_, _) :=
    MergeStage.prepare_block rfl (hasNext_fetched idle oneRow) (next_channel given) rfl
      (checkScanOrder_oneRow m.scan) _
  rw [nothing] at prepared
  rw [next, between.next_stopped (by rw [fresh_lanes]; exact prepared)]
  simp only [List.map_cons, List.map_map, unreached]
  rfl

/-- The merge has a block of its first channel, and the second was not asked. -/
theorem next_overtaken (between : m.Between) (other : f.Idle) {first : Inlet (Tree Source)}
    (held : first.held.isSome) :
    (merge m
        (first :: ⟨channel { f with awaiting := true }, none, mayPull, false⟩ :: others)).next.1 =
      .error (.protocolViolation f.name .readinessNotChecked) := by
  have broken : { f with awaiting := true }.next =
      (.error (.protocolViolation f.name .readinessNotChecked),
        { f with awaiting := true }.next.2) :=
    Prod.ext other.next_again rfl
  have again : (channel { f with awaiting := true }).hasNext = .ok true :=
    congrArg Except.ok other.hasNext
  have failed : MergeStage.prepare hasNext m.scan
      (fresh ⟨channel { f with awaiting := true }, none, mayPull, false⟩ :: others.map fresh) =
        (.error _, _) :=
    MergeStage.prepare_failed rfl again (next_channel broken) _
  have prepared : MergeStage.prepare hasNext m.scan (fresh first ::
      fresh ⟨channel { f with awaiting := true }, none, mayPull, false⟩ :: others.map fresh) =
        (_, _) :=
    MergeStage.prepare_held held _
  rw [failed] at prepared
  rw [next]
  exact between.next_failed (by rw [fresh_lanes]; exact prepared)

end Tree

variable {m : MergeStage} {x y : Channel} {others : List Channel}

theorem MergeStage.Between.breaks (name : String) (between : m.Between) (roomFirst : 0 < x.capacity)
    (roomSecond : 0 < y.capacity) (apart : ∀ c ∈ y :: others, c.name ≠ x.name) :
    (Session.start name (fanIn m (x :: y :: others))).Breaks (fastFirst x) := by
  have idle : x.exchange.Idle := Exchange.idle_create x.name x.schema roomFirst
  have other : y.exchange.Idle := Exchange.idle_create y.name y.schema roomSecond
  have away : Tree.Apart x.name ((y :: others).map Channel.inlet) := by
    intro inlet member
    obtain ⟨c, inside, rfl⟩ := List.mem_map.1 member
    exact ⟨c.exchange, rfl, apart c inside⟩
  obtain ⟨g, still, same, pulled⟩ := Tree.next_first (m := m) between idle other rfl
    (others.map Channel.inlet)
  let s := Session.start name (fanIn m (x :: y :: others))
  obtain ⟨free, root⟩ := Session.quiet_sent (s := s) rfl rfl between.hasNext idle away oneRow pulled
  have away :
      Tree.Apart g.name (⟨.channel { y.exchange with awaiting := true }, none, false, false⟩ ::
      Tree.unreached (others.map Channel.inlet)) := by
    rw [same]
    refine List.forall_mem_cons.2 ⟨⟨_, rfl, apart y List.mem_cons_self⟩, Tree.apart_unreached ?_⟩
    exact fun inlet member => away inlet (List.mem_cons_of_mem _ member)
  have failed := Session.failed_sent free root between.clear.hasNext still away oneRow
    (Tree.next_overtaken between.clear other rfl)
  rw [same] at failed
  have last := List.mem_singleton_self
    (Turn.failed ⟨.protocolViolation y.name .readinessNotChecked, some .pulling⟩)
  exact ⟨y.name, .readinessNotChecked, some .pulling, List.mem_cons_of_mem _ (failed.symm ▸ last)⟩

section
variable {channels : List Channel}

theorem open_fanIn (running : m.closed = false) : (fanIn m channels).shape.Open := by
  rw [fanIn, Tree.shape_merge, running]
  refine .merge fun child member => ?_
  rw [List.map_map] at member
  obtain ⟨c, _, rfl⟩ := List.mem_map.1 member
  exact .source true

theorem sparse_fanIn (m : MergeStage) (few : channels.length < 2) :
    (fanIn m channels).shape.Sparse := by
  rw [fanIn, Tree.shape_merge]
  refine .merge (fun child member => ?_) ?_
  · rw [List.map_map] at member
    obtain ⟨c, _, rfl⟩ := List.mem_map.1 member
    exact .source true false
  · match channels with
    | [] => exact .nil
    | [_] => exact List.pairwise_singleton _ _
    | _ :: _ :: _ =>
      simp only [List.length_cons] at few
      omega

/-- A merge of channels can be driven into a breach if and only if it has windows
to close and there are two channels. -/
theorem breaks_fanIn_iff {q : Query} {context : Context}
    (accepted : q.mergeStage context (channels.map (·.schema)) = .ok m)
    (apart : (channels.map (·.name)).Nodup) (room : ∀ c ∈ channels, 0 < c.capacity)
    (name : String) :
    (∃ events, (Session.start name (fanIn m channels)).Breaks events) ↔
      m.hasNext = true ∧ 2 ≤ channels.length := by
  obtain ⟨_, aggregators, series, _, _, _, _, created⟩ := Query.mergeStage_eq_ok accepted
  constructor
  · rintro ⟨events, breaks⟩
    have running : m.closed = false := by rw [created]; rfl
    have sound : (Session.start name (fanIn m channels)).Sound :=
      Session.sound_start name (open_fanIn running)
    constructor
    · by_contra exhausted
      have exhausted := Bool.eq_false_iff.2 exhausted
      exact sound.not_breaks (Session.careful_of_exhausted exhausted rfl ⟨_, rfl⟩ events) breaks
    · by_contra few
      have sparse : (Session.start name (fanIn m channels)).root.shape.Sparse :=
        sparse_fanIn m (Nat.lt_of_not_le few)
      exact sound.not_breaks (Session.careful_of_sparse sparse events) breaks
  · rintro ⟨more, two⟩
    match channels with
    | [] | [_] => simp at two
    | x :: y :: others =>
      have between : m.Between := by
        subst created
        refine ⟨rfl, rfl, ?_, _, [], RowBuffer.holds_create _ _⟩
        simpa [MergeStage.hasNext, MergeStage.create] using more
      have away : ∀ c ∈ y :: others, c.name ≠ x.name := by
        intro c member same
        exact (List.nodup_cons.1 apart).1 (List.mem_map.2 ⟨c, member, same⟩)
      exact ⟨_, between.breaks name (room x (by simp)) (room y (by simp)) away⟩

end

/-- A tree that is driven breaks the rule only after a check has overlooked a
source. None does where each merge has fed sources below one child at most; of the
merges of channels, those that close windows over two or more of them can. Nothing is closed
in a tree that is planned, and to poll a run or to go for the next block is to take turns. -/
theorem Session.breaks_start (name : String) :
    (∀ tree : Tree Source, tree.shape.Open → ∀ events, (start name tree).Careful events →
      ¬ (start name tree).Breaks events) ∧
    (∀ tree : Tree Source, tree.shape.Open → tree.shape.Sparse → ∀ events,
      ¬ (start name tree).Breaks events) ∧
    (∀ (q : Query) (context : Context) (channels : List Channel) (m : MergeStage),
      q.mergeStage context (channels.map (·.schema)) = .ok m →
      (channels.map (·.name)).Nodup → (∀ c ∈ channels, 0 < c.capacity) →
      ((∃ events, (start name (fanIn m channels)).Breaks events) ↔
        m.hasNext = true ∧ 2 ≤ channels.length)) ∧
    (∀ (plan : Plan) (limits : Limits) (built : Plan.Built), plan.make limits = .ok built →
      built.1.shape.Open) ∧
    (∀ (r : Run (Tree Source)) (turns : Nat),
      ∃ events, Run.Played ⟨r.driver, r.awaited⟩ (r.pollWithin turns) events) ∧
    ∀ (d : Driver (Tree Source)) (turns : Nat),
      ∃ events, Driver.Played ⟨d, none⟩ (d.nextBlockWithin turns) events := by
  refine ⟨?_, ?_, ?_, fun _ _ _ => Plan.open_make, fun r => r.pollWithin_played,
    fun d turns => Driver.nextBlockWithin_played turns d⟩
  · intro tree running events careful
    exact (sound_start name running).not_breaks careful
  · intro tree running sparse events
    exact (sound_start name running).not_breaks
      (careful_of_sparse (s := start name tree) sparse events)
  · intro q context channels m accepted apart room
    exact breaks_fanIn_iff accepted apart room name

/-- Counts in windows of ten from 0 to 20. -/
def tally : Query where
  aggregations := [⟨.count, .closing, [1], none⟩]
  grouping := some ⟨0, 20, .millis 10, none, true⟩
  scan := .ascending
  keepsClipped := true

def tallied (name : String) : Channel :=
  ⟨name, [Block.timeField, ⟨"count", .int64, true⟩], 4⟩

theorem Session.breaks_start_tally :
    ∃ one two, tally.mergeStage .standard ([tallied "x"].map (·.schema)) = .ok one ∧
      tally.mergeStage .standard ([tallied "x", tallied "y"].map (·.schema)) = .ok two ∧
      (∀ events, ¬ (start "tally" (fanIn one [tallied "x"])).Breaks events) ∧
      ∃ events, (start "tally" (fanIn two [tallied "x", tallied "y"])).Breaks events := by
  obtain ⟨_, sparse, flat, _⟩ := breaks_start "tally"
  refine ⟨_, _, rfl, rfl, ?_, ?_⟩
  · exact sparse _ (open_fanIn rfl) (sparse_fanIn _ (by decide))
  · exact (flat tally .standard _ _ rfl (by decide) (by decide)).2 ⟨by decide, by decide⟩

end WindowFold
