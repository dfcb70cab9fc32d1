import WindowFold.Proofs.Answers
import WindowFold.Proofs.MergeRun
import WindowFold.Proofs.Playing
import WindowFold.Proofs.Rounds

/-! A merge over children whose answers are known gives the rows of its rounds.
In which calls the rounds are made depends on where the answers fall; the rows
do not. -/
namespace WindowFold

namespace Inlet
variable {σ : Type}

/-- The rows held, and the blocks among the answers to come. -/
def queue (inlet : Inlet σ) (answers : List Answer) : Queue :=
  ⟨inlet.held, answers.filterMap Answer.filled?⟩

end Inlet

def Lane.skipPast {σ : Type} (lane : Lane σ) (range : TimeRange) (scan : Scan) : Lane σ :=
  { lane with inlet := lane.inlet.skipPast range scan }

variable {σ : Type} [Operator σ] {types : List ScalarType} {scan : Scan}

/-- A child with these answers to give. It is poised for the one pull of a call,
and has to be asked again after it. -/
structure Lane.Follows (types : List ScalarType) (scan : Scan) (lane : Lane σ)
    (answers : List Answer) : Prop where
  fit : (lane.inlet.queue answers).Fit types scan
  ended : lane.inlet.ended = true → answers = []
  poised : lane.inlet.ended = false → lane.inlet.mayPull = true →
    lane.pull lane.inlet.child = Operator.next lane.inlet.child ∧ Primed answers lane.inlet.child
  pulled : lane.inlet.ended = false → lane.inlet.mayPull = false → Plays answers lane.inlet.child

theorem Lane.Follows.shows {lane : Lane σ} {answers : List Answer}
    (follows : lane.Follows types scan answers) (going : lane.inlet.ended = false) :
    Shows answers lane.inlet.child := by
  cases may : lane.inlet.mayPull with
  | true => exact (follows.poised going may).2.shows
  | false => exact (follows.pulled going may).1

namespace MergeStage

def queues (inlets : List (Inlet σ)) (flows : List (List Answer)) : List Queue :=
  List.zipWith Inlet.queue inlets flows

def answersLeft (flows : List (List Answer)) : Nat := (flows.map List.length).sum

def Waits (lanes : List (Lane σ)) : Prop :=
  ∃ lane ∈ lanes, lane.inlet.ended = false ∧ lane.inlet.mayPull = false

/-- What comes of an attempt to fill the inlets: the queues are filled, or a child
that has been pulled has nothing to give. -/
structure Topped (types : List ScalarType) (scan : Scan) (lanes : List (Lane σ))
    (flows : List (List Answer)) (full : Bool) (topped : List (Lane σ))
    (fewer : List (List Answer)) : Prop where
  follow : List.Forall₂ (Lane.Follows types scan) topped fewer
  same : (queues (topped.map (·.inlet)) fewer).map Queue.fill =
    (queues (lanes.map (·.inlet)) flows).map Queue.fill
  filled : full = true → queues (topped.map (·.inlet)) fewer =
    (queues (lanes.map (·.inlet)) flows).map Queue.fill
  less : answersLeft fewer ≤ answersLeft flows
  waits : Waits topped → Waits lanes ∨ answersLeft fewer < answersLeft flows
  stopped : full = false → Waits topped

section
variable {lanes topped : List (Lane σ)} {flows fewer : List (List Answer)} {full : Bool}
  {lane next : Lane σ} {answers left : List Answer}

theorem Topped.goOn (later : Topped types scan lanes flows full topped fewer)
    (follows : next.Follows types scan left)
    (filled : next.inlet.queue left = (lane.inlet.queue answers).fill)
    (pace : next.inlet = lane.inlet ∧ left = answers ∨ next.inlet.ended = true ∧ left = answers ∨
      left.length < answers.length) :
    Topped types scan (lane :: lanes) (answers :: flows) full (next :: topped) (left :: fewer) where
  follow := .cons follows later.follow
  same := by
    have others := later.same
    simp only [queues, List.map_cons, List.zipWith_cons_cons, filled, Queue.fill_fill] at others ⊢
    rw [others]
  filled all := by
    have others := later.filled all
    simp only [queues, List.map_cons, List.zipWith_cons_cons, filled] at others ⊢
    rw [others]
  less := by
    have := later.less
    simp only [answersLeft, List.map_cons, List.sum_cons] at *
    rcases pace with ⟨_, rfl⟩ | ⟨_, rfl⟩ | fewer <;> omega
  waits := by
    have less := later.less
    simp only [answersLeft, List.map_cons, List.sum_cons] at *
    rintro ⟨l, member, going, used⟩
    rcases List.mem_cons.1 member with rfl | member
    · rcases pace with ⟨same, rfl⟩ | ⟨ended, _⟩ | nearer
      · exact .inl ⟨lane, List.mem_cons_self, same ▸ going, same ▸ used⟩
      · exact absurd (ended.symm.trans going) nofun
      · exact .inr (by omega)
    · have least : left.length ≤ answers.length := by
        rcases pace with ⟨_, rfl⟩ | ⟨_, rfl⟩ | fewer <;> omega
      rcases later.waits ⟨l, member, going, used⟩ with ⟨k, inside, waits⟩ | nearer
      · exact .inl ⟨k, List.mem_cons_of_mem _ inside, waits⟩
      · simp only [answersLeft] at nearer
        exact .inr (by omega)
  stopped none := by
    obtain ⟨l, member, waits⟩ := later.stopped none
    exact ⟨l, List.mem_cons_of_mem _ member, waits⟩

theorem Topped.stop (follow : List.Forall₂ (Lane.Follows types scan) lanes flows)
    (follows : next.Follows types scan left)
    (same : next.inlet.queue left = lane.inlet.queue answers)
    (waits : next.inlet.ended = false ∧ next.inlet.mayPull = false)
    (pace : next = lane ∧ left = answers ∨ left.length < answers.length) :
    Topped types scan (lane :: lanes) (answers :: flows) false (next :: lanes) (left :: flows) where
  follow := .cons follows follow
  same := by simp only [queues, List.map_cons, List.zipWith_cons_cons, same]
  filled := nofun
  less := by
    simp only [answersLeft, List.map_cons, List.sum_cons]
    rcases pace with ⟨_, rfl⟩ | fewer <;> omega
  waits := by
    simp only [answersLeft, List.map_cons, List.sum_cons]
    intro _
    rcases pace with ⟨rfl, rfl⟩ | nearer
    · exact .inl ⟨next, List.mem_cons_self, waits⟩
    · exact .inr (by omega)
  stopped _ := ⟨next, List.mem_cons_self, waits⟩

end

theorem prepare_topped {lanes : List (Lane σ)} {flows : List (List Answer)}
    (follow : List.Forall₂ (Lane.Follows types scan) lanes flows) :
    ∃ full topped fewer, prepare Operator.hasNext scan lanes = (.ok full, topped) ∧
      Topped types scan lanes flows full topped fewer := by
  induction follow with
  | nil => exact ⟨true, [], [], rfl, .nil, rfl, fun _ => rfl, Nat.le_refl _, nofun, nofun⟩
  | @cons lane answers lanes flows follows follow ih =>
    obtain ⟨full, topped, fewer, prepared, later⟩ := ih
    rw [prepare, prepared]
    obtain ⟨⟨child, held, mayPull, ended⟩, pull⟩ := lane
    cases held with
    | some block =>
      exact ⟨full, _, _, rfl, later.goOn follows rfl (.inl ⟨rfl, rfl⟩)⟩
    | none =>
    cases ended with
    | true =>
      obtain rfl := follows.ended rfl
      exact ⟨full, _, _, rfl, later.goOn follows rfl (.inl ⟨rfl, rfl⟩)⟩
    | false =>
    have told := (follows.shows rfl).more
    simp only at told
    simp only [told, Option.isSome_none, Bool.or_self, Bool.false_eq_true, if_false]
    cases answers with
    | nil =>
      exact ⟨full, _, _, rfl, later.goOn ⟨Queue.fit_nil, fun _ => rfl, nofun, nofun⟩ rfl
        (.inr (.inl ⟨rfl, rfl⟩))⟩
    | cons answer rest =>
    cases mayPull with
    | false => exact ⟨false, _, _, rfl, .stop follow follows rfl ⟨rfl, rfl⟩ (.inl ⟨rfl, rfl⟩)⟩
    | true =>
    obtain ⟨own, primed⟩ := follows.poised rfl rfl
    simp only at own
    simp only [own, List.isEmpty_cons, Bool.not_false, Bool.not_true, Bool.false_eq_true, if_false]
    obtain ⟨_, going, next, given, plays⟩ := primed child .never
    have fit := follows.fit
    have fewer : rest.length < (answer :: rest).length := Nat.lt_succ_self _
    have pulled : ∀ held, (Inlet.queue ⟨next, held, false, false⟩ rest).Fit types scan →
        Lane.Follows types scan ⟨⟨next, held, false, false⟩, pull⟩ rest :=
      fun _ fit => ⟨fit, nofun, nofun, fun _ _ => plays⟩
    rw [given]
    cases answer with
    | endOfStream => exact absurd rfl going
    | notReady =>
      exact ⟨false, _, _, rfl, .stop follow (pulled none fit) rfl ⟨rfl, rfl⟩ (.inr fewer)⟩
    | block block =>
    by_cases empty : block.isEmpty = true
    · have nothing : (Answer.block block).filled? = none := if_pos empty
      have same : Inlet.queue ⟨next, none, false, false⟩ rest =
          Inlet.queue ⟨child, none, true, false⟩ (.block block :: rest) := by
        rw [Inlet.queue, Inlet.queue, List.filterMap_cons_none nothing]
      exact ⟨false, _, _, if_pos empty,
        .stop follow (pulled none (same ▸ fit)) same ⟨rfl, rfl⟩ (.inr fewer)⟩
    · have something : (Answer.block block).filled? = some block := if_neg empty
      have filled : Inlet.queue ⟨next, some block, false, false⟩ rest =
          (Inlet.queue ⟨child, none, true, false⟩ (.block block :: rest)).fill := by
        rw [Inlet.queue, Inlet.queue, List.filterMap_cons_some something]
        rfl
      have fits := filled ▸ fit.fill
      have ordered := (fits block (List.mem_append_left _ (List.mem_singleton.2 rfl))).2
      have checked := (Block.checkScanOrder_eq_ok_iff block scan).2 ordered
      exact ⟨full, _, _, (if_neg empty).trans (by rw [checked]),
        later.goOn (pulled (some block) fits) filled (.inr (.inr fewer))⟩

/-- Where a merge stands between two rounds. -/
structure Idles (fresh : List Aggregator) (scan : Scan) (m : MergeStage) : Prop where
  scan : m.cursor.scan = scan
  fresh : ∀ range, enterAll m.aggregators range = enterAll fresh range
  idle : m.active = none
  running : m.closed = false

variable {fresh : List Aggregator} {m : MergeStage} {lanes : List (Lane σ)}
  {flows : List (List Answer)} {window : Window} {coming : List Window} {emitted : List Row}

theorem held_queues (follow : List.Forall₂ (Lane.Follows types scan) lanes flows) :
    (queues (lanes.map (·.inlet)) flows).filterMap (·.held) = lanes.filterMap (·.inlet.held) := by
  induction follow with
  | nil => rfl
  | cons _ _ ih =>
    simp only [queues, List.map_cons, List.zipWith_cons_cons, List.filterMap_cons] at ih ⊢
    rw [ih]
    rfl

omit [Operator σ] in
theorem queues_skipPast (lanes : List (Lane σ)) (flows : List (List Answer)) (range : TimeRange) :
    queues ((lanes.map (·.skipPast range scan)).map (·.inlet)) flows =
      (queues (lanes.map (·.inlet)) flows).map (·.skipPast range scan) := by
  rw [queues, queues, List.map_zipWith, List.map_map, List.zipWith_map_left, List.zipWith_map_left]
  rfl

theorem follow_skipPast (follow : List.Forall₂ (Lane.Follows types scan) lanes flows)
    (range : TimeRange) :
    List.Forall₂ (Lane.Follows types scan) (lanes.map (·.skipPast range scan)) flows :=
  List.forall₂_map_left_iff.2 (follow.imp fun _ _ follows =>
    ⟨follows.fit.skipPast range, follows.ended, follows.poised, follows.pulled⟩)

theorem closeWindow_round (gather : ∀ a ∈ fresh, a.Gathers types scan)
    (stands : m.Idles fresh scan) (todo : m.cursor.left = window :: coming)
    (follow : List.Forall₂ (Lane.Follows types scan) lanes flows)
    (holds : m.buffer.Holds (outputSchema fresh) emitted) {outcome : Except Failure Unit}
    {aggregators : List Aggregator}
    (fed : feedAll ((queues (lanes.map (·.inlet)) flows).filterMap (·.held))
      (enterAll fresh window.range) = (outcome, aggregators)) :
    ∃ v u after, m.enterWindow = some (window, v) ∧
      v.closeWindow lanes window = (outcome, u, after) ∧
      (outcome = .ok () → after = lanes.map (·.skipPast window.range scan) ∧
        u.Idles fresh scan ∧ u.cursor.left = coming ∧ u.buffer.Holds (outputSchema fresh)
          (emitted ++ [⟨window.outputTime, outputRow aggregators⟩])) := by
  have next := m.cursor.next?_spec
  rw [todo] at next
  obtain ⟨cursor, met, left, same⟩ := next
  let v : MergeStage := { m with
    cursor := cursor, aggregators := enterAll m.aggregators window.range, active := some window }
  have entered : m.enterWindow = some (window, v) := by
    rw [enterWindow, stands.idle, met]
    rfl
  have fit : Aggregator.Fit types scan (lanes.filterMap (·.inlet.held)) := by
    intro block member
    obtain ⟨lane, inside, held⟩ := List.mem_filterMap.1 member
    obtain ⟨answers, _, follows⟩ := exists_right follow inside
    exact follows.fit block (List.mem_append_left _ (Option.mem_toList.2 held))
  obtain ⟨again, sorts⟩ := feedAll_spec gather fit window.range
  rw [held_queues follow] at fed
  rw [fed] at again sorts
  have feeds : feedAll (lanes.filterMap (·.inlet.held)) v.aggregators = (outcome, aggregators) := by
    rw [← fed, ← stands.fresh]
  cases outcome with
  | error e =>
    refine ⟨v, { v with aggregators := aggregators }, lanes, entered, ?_, by simp⟩
    rw [closeWindow, feeds]
  | ok =>
    obtain ⟨buffer, appended, held⟩ := holds.append window.outputTime sorts
    refine ⟨v, { m with
        cursor := cursor, aggregators := aggregators, active := none, buffer := buffer },
      _, entered, ?_, fun _ => ⟨rfl, ⟨same.trans stands.scan, again, rfl, stands.running⟩,
        left, held⟩⟩
    have scans : cursor.scan = scan := same.trans stands.scan
    rw [closeWindow, feeds]
    simp only [v, MergeStage.scan, scans, appended]
    rfl

/-- What a call has done when it ends: it has made some rounds and is ready for
the others. It stops where no window is left, where there are rows to give, or
where a child has been pulled. -/
structure Advanced (fresh : List Aggregator) (types : List ScalarType) (scan : Scan)
    (m : MergeStage) (lanes : List (Lane σ)) (flows : List (List Answer)) (emitted : List Row)
    (v : MergeStage) (after : List (Lane σ)) (fewer : List (List Answer)) (rows : List Row) :
    Prop where
  stands : v.Idles fresh scan
  follow : List.Forall₂ (Lane.Follows types scan) after fewer
  holds : v.buffer.Holds (outputSchema fresh) (emitted ++ rows)
  rest : rounds fresh scan m.cursor.left (queues (lanes.map (·.inlet)) flows) =
    (rounds fresh scan v.cursor.left (queues (after.map (·.inlet)) fewer)).map (rows ++ ·)
  windows : m.cursor.left.length = rows.length + v.cursor.left.length
  less : answersLeft fewer ≤ answersLeft flows
  waits : Waits after → Waits lanes ∨ answersLeft fewer < answersLeft flows
  stopped : v.cursor.left = [] ∨ emitted ++ rows ≠ [] ∨ Waits after

theorem Advanced.start {after : List (Lane σ)} {fewer : List (List Answer)}
    (stands : m.Idles fresh scan) (follow : List.Forall₂ (Lane.Follows types scan) after fewer)
    (holds : m.buffer.Holds (outputSchema fresh) emitted)
    (same : rounds fresh scan m.cursor.left (queues (lanes.map (·.inlet)) flows) =
      rounds fresh scan m.cursor.left (queues (after.map (·.inlet)) fewer))
    (less : answersLeft fewer ≤ answersLeft flows)
    (waits : Waits after → Waits lanes ∨ answersLeft fewer < answersLeft flows)
    (stopped : m.cursor.left = [] ∨ emitted ≠ [] ∨ Waits after) :
    Advanced fresh types scan m lanes flows emitted m after fewer [] where
  stands := stands
  follow := follow
  holds := by rwa [List.append_nil]
  rest := by
    rw [same]
    cases rounds fresh scan m.cursor.left (queues (after.map (·.inlet)) fewer) <;> rfl
  windows := (Nat.zero_add _).symm
  less := less
  waits := waits
  stopped := by rwa [List.append_nil]

omit [Operator σ] in
theorem Waits.of_skipPast {range : TimeRange}
    (waits : Waits (lanes.map (·.skipPast range scan))) : Waits lanes := by
  obtain ⟨lane, member, going, used⟩ := waits
  obtain ⟨same, inside, rfl⟩ := List.mem_map.1 member
  exact ⟨same, inside, going, used⟩

theorem Topped.queues_skipPast {topped : List (Lane σ)} {fewer : List (List Answer)}
    (state : Topped types scan lanes flows true topped fewer) (range : TimeRange) :
    queues ((topped.map (·.skipPast range scan)).map (·.inlet)) fewer =
      ((queues (lanes.map (·.inlet)) flows).map Queue.fill).map (·.skipPast range scan) := by
  rw [MergeStage.queues_skipPast, state.filled rfl]

/-- A round has been made with the filled inlets, and then others. -/
theorem Advanced.step {u v : MergeStage} {topped after : List (Lane σ)}
    {fewer least : List (List Answer)} {aggregators : List Aggregator} {rows : List Row}
    (state : Topped types scan lanes flows true topped fewer)
    (todo : m.cursor.left = window :: coming) (left : u.cursor.left = coming)
    (fed : feedAll (((queues (lanes.map (·.inlet)) flows).map Queue.fill).filterMap (·.held))
      (enterAll fresh window.range) = (.ok (), aggregators))
    (later : Advanced fresh types scan u (topped.map (·.skipPast window.range scan)) fewer
      (emitted ++ [⟨window.outputTime, outputRow aggregators⟩]) v after least rows) :
    Advanced fresh types scan m lanes flows emitted v after least
      (⟨window.outputTime, outputRow aggregators⟩ :: rows) where
  stands := later.stands
  follow := later.follow
  holds := by simpa using later.holds
  rest := by
    have rest := later.rest
    rw [left, state.queues_skipPast] at rest
    rw [todo, rounds_cons_ok fed, rest]
    cases rounds fresh scan v.cursor.left (queues (after.map (·.inlet)) least) <;> rfl
  windows := by
    have windows := later.windows
    rw [left] at windows
    simp only [todo, List.length_cons]
    omega
  less := Nat.le_trans later.less state.less
  waits := by
    intro waits
    rcases later.waits waits with earlier | nearer
    · rcases state.waits earlier.of_skipPast with before | nearer
      · exact .inl before
      · exact .inr (Nat.lt_of_le_of_lt later.less nearer)
    · exact .inr (Nat.lt_of_lt_of_le nearer state.less)
  stopped := .inr (.inl (by simp))

/-- A call makes rounds one after the other, up to one that fails. -/
theorem closeWindows_rounds (gather : ∀ a ∈ fresh, a.Gathers types scan) {windows : Nat}
    (enough : windows = m.cursor.left.length) (stands : m.Idles fresh scan)
    (follow : List.Forall₂ (Lane.Follows types scan) lanes flows)
    (holds : m.buffer.Holds (outputSchema fresh) emitted) :
    (∃ e v after, m.closeWindows Operator.hasNext windows lanes = (.error e, v, after) ∧
      rounds fresh scan m.cursor.left (queues (lanes.map (·.inlet)) flows) = .error e) ∨
    ∃ v after fewer rows, m.closeWindows Operator.hasNext windows lanes = (.ok (), v, after) ∧
      Advanced fresh types scan m lanes flows emitted v after fewer rows := by
  induction windows generalizing m lanes flows emitted with
  | zero =>
    exact .inr ⟨m, lanes, flows, [], rfl, .start stands follow holds rfl (Nat.le_refl _) .inl
      (.inl (List.length_eq_zero_iff.1 enough.symm))⟩
  | succ windows ih =>
    rw [closeWindows]
    by_cases full : m.buffer.isFull = true
    · have given : emitted ≠ [] := by
        rintro rfl
        exact absurd full (by simp [holds.not_full])
      exact .inr ⟨m, lanes, flows, [], if_pos full,
        .start stands follow holds rfl (Nat.le_refl _) .inl (.inr (.inl given))⟩
    rw [if_neg full]
    obtain ⟨full, topped, fewer, prepared, state⟩ := prepare_topped follow
    simp only [MergeStage.scan, stands.scan, prepared]
    cases full with
    | false =>
      exact .inr ⟨m, topped, fewer, [], rfl, .start stands state.follow holds
        (rounds_congr state.same).symm state.less state.waits (.inr (.inr (state.stopped rfl)))⟩
    | true =>
    cases todo : m.cursor.left with
    | nil => rw [todo] at enough; contradiction
    | cons window coming =>
    rcases fed : feedAll (((queues (lanes.map (·.inlet)) flows).map Queue.fill).filterMap (·.held))
      (enterAll fresh window.range) with ⟨outcome, aggregators⟩
    have feeds : feedAll ((queues (topped.map (·.inlet)) fewer).filterMap (·.held))
        (enterAll fresh window.range) = (outcome, aggregators) := by rw [state.filled rfl, fed]
    obtain ⟨v, u, closed, entered, closes, further⟩ :=
      closeWindow_round gather stands todo state.follow holds feeds
    simp only [entered, closes]
    cases outcome with
    | error e => exact .inl ⟨e, u, closed, rfl, rounds_cons_error fed⟩
    | ok =>
    obtain ⟨rfl, stood, left, held⟩ := further rfl
    have fewest : windows = u.cursor.left.length := by
      rw [left]
      rw [todo] at enough
      simpa using enough
    rcases ih fewest stood (follow_skipPast state.follow window.range) held with
      ⟨e, x, last, failed, fails⟩ | ⟨x, last, least, rows, closing, later⟩
    · rw [left, state.queues_skipPast] at fails
      exact .inl ⟨e, x, last, failed, by rw [rounds_cons_ok fed, fails]; rfl⟩
    · exact .inr ⟨x, last, least, _, closing, .step state todo left fed later⟩

end MergeStage

/-- A child with these answers to give, between two calls. -/
structure Inlet.Follows (types : List ScalarType) (scan : Scan) (inlet : Inlet σ)
    (answers : List Answer) : Prop where
  fit : (inlet.queue answers).Fit types scan
  ended : inlet.ended = true → answers = []
  plays : inlet.ended = false → Plays answers inlet.child

theorem Lane.Follows.inlet {lane : Lane σ} {answers : List Answer}
    (follows : lane.Follows types scan answers) : lane.inlet.Follows types scan answers where
  fit := follows.fit
  ended := follows.ended
  plays going := by
    cases may : lane.inlet.mayPull with
    | true => exact (follows.poised going may).2.plays
    | false => exact follows.pulled going may

namespace MergeStage

/-- A merge and its children between two calls. -/
structure Follows (fresh : List Aggregator) (types : List ScalarType) (scan : Scan) (m : MergeStage)
    (inlets : List (Inlet σ)) (flows : List (List Answer)) : Prop where
  stands : m.Idles fresh scan
  holds : ∃ emitted, m.buffer.Holds (outputSchema fresh) emitted
  follow : List.Forall₂ (Inlet.Follows types scan) inlets flows

theorem follows_create (context : Context) (fresh : List Aggregator) (series : WindowSeries)
    {inlets : List (Inlet σ)} {flows : List (List Answer)}
    (follow : List.Forall₂ (Inlet.Follows types scan) inlets flows) :
    (create context fresh (.start series scan)).Follows fresh types scan inlets flows where
  stands := ⟨rfl, fun _ => rfl, rfl, rfl⟩
  holds := ⟨[], RowBuffer.holds_create _ _⟩
  follow := follow

variable {fresh : List Aggregator} {m : MergeStage} {flows : List (List Answer)}

/-- A call makes some rounds, or brings a child's end nearer, or it has come to
the end. -/
theorem next_rounds (gather : ∀ a ∈ fresh, a.Gathers types scan) (stands : m.Idles fresh scan)
    {emitted : List Row} (holds : m.buffer.Holds (outputSchema fresh) emitted)
    {lanes : List (Lane σ)} (follow : List.Forall₂ (Lane.Follows types scan)
      (lanes.map fun lane => { lane with inlet := { lane.inlet with mayPull := true } }) flows) :
    (∃ e v after, m.next Operator.hasNext lanes = (.error e, v, after) ∧
      rounds fresh scan m.cursor.left (queues (lanes.map (·.inlet)) flows) = .error e) ∨
    ∃ answer v after fewer, m.next Operator.hasNext lanes = (.ok answer, v, after) ∧
      v.Follows fresh types scan after fewer ∧
      rounds fresh scan m.cursor.left (queues (lanes.map (·.inlet)) flows) =
        (rounds fresh scan v.cursor.left (queues after fewer)).map (answer.rows ++ ·) ∧
      (answer = .endOfStream → v.cursor.left = []) ∧
      (answer ≠ .endOfStream →
        answersLeft fewer + v.cursor.left.length < answersLeft flows + m.cursor.left.length) := by
  let u : MergeStage := { m with buffer := m.buffer.clear }
  let ready := lanes.map fun lane => { lane with inlet := { lane.inlet with mayPull := true } }
  have stood : u.Idles fresh scan := { stands with }
  have unspent : ¬ Waits ready := by
    rintro ⟨lane, member, _, used⟩
    obtain ⟨_, _, rfl⟩ := List.mem_map.1 member
    contradiction
  have queued : queues (ready.map (·.inlet)) flows = queues (lanes.map (·.inlet)) flows := by
    simp only [queues, ready, List.map_map, List.zipWith_map_left]
    rfl
  rw [MergeStage.next, if_neg (by simp [stands.running]), ← queued]
  simp only
  rcases closeWindows_rounds gather (windowsLeft_eq stood.idle) stood follow holds.clear with
    ⟨e, v, after, failed, fails⟩ | ⟨v, after, fewer, rows, closing, state⟩
  · refine .inl ⟨e, v, after.map (·.inlet), ?_, fails⟩
    rw [show MergeStage.closeWindows Operator.hasNext _ u ready = _ from failed]
  · right
    rw [show MergeStage.closeWindows Operator.hasNext _ u ready = _ from closing]
    -- The rows to come are not known; there are as many as windows.
    have last : v.hasNext = false ↔ v.cursor.left.map (fun w => Row.mk w.outputTime []) = [] := by
      rw [hasNext_eq state.stands.idle state.stands.running, Bool.not_eq_false', List.isEmpty_iff,
        List.map_eq_nil_iff]
    have held := state.holds
    rw [List.nil_append] at held
    obtain ⟨answer, buffer, answered, cleared, leaves, some⟩ :=
      held.answer outputFields_nullable rfl last
    have given : rows = answer.rows := List.append_cancel_right leaves.given
    refine ⟨answer, { v with buffer := buffer }, after.map (·.inlet), fewer, ?_,
      ⟨{ state.stands with }, ⟨[], cleared⟩,
        List.forall₂_map_left_iff.2 (state.follow.imp fun _ _ own => own.inlet)⟩,
      given ▸ state.rest, fun ended => List.map_eq_nil_iff.1 (leaves.ended ended), fun going => ?_⟩
    · have ends : v.answer = (.ok answer, { v with buffer := buffer }) := by
        rw [answer_eq, answered]
        rfl
      simp only [ends]
    · have windows : m.cursor.left.length = rows.length + v.cursor.left.length := state.windows
      have less := state.less
      change answersLeft fewer + v.cursor.left.length < answersLeft flows + m.cursor.left.length
      cases rows with
      | nil =>
        have waits : Waits after := by
          rcases state.stopped with none | given | waits
          · exact absurd none (by simpa using some going)
          · exact absurd rfl given
          · exact waits
        have := (state.waits waits).resolve_left unspent
        simp only [List.length_nil] at windows
        omega
      | cons row rows =>
        rw [List.length_cons] at windows
        omega

end MergeStage

theorem Inlet.Follows.ask {inlet : Inlet σ} {answers : List Answer}
    (follows : inlet.Follows types scan answers) :
    Lane.Follows types scan
      ⟨{ inlet.ask with mayPull := true }, fun _ => Operator.next inlet.ask.child⟩ answers := by
  obtain ⟨child, held, mayPull, ended⟩ := inlet
  cases ended with
  | true => exact ⟨follows.fit, follows.ended, nofun, fun _ used => absurd used nofun⟩
  | false =>
    exact ⟨follows.fit, nofun, fun _ _ => ⟨rfl, (follows.plays rfl).2⟩,
      fun _ used => absurd used nofun⟩

@[simp] theorem Inlet.queue_ask (inlet : Inlet σ) : inlet.ask.queue = inlet.queue := by
  rw [Inlet.ask]
  split <;> rfl

namespace MergeStage
variable {fresh : List Aggregator} {m : MergeStage} {inlets : List (Inlet (Tree σ))}
  {flows : List (List Answer)}

theorem Follows.next_spec (follows : m.Follows fresh types scan inlets flows)
    (gather : ∀ a ∈ fresh, a.Gathers types scan) :
    (∃ e tree, Operator.next (Operator.readiness (Tree.merge m inlets)).2 = (.error e, tree) ∧
      rounds fresh scan m.cursor.left (queues inlets flows) = .error e) ∨
    ∃ answer v after fewer, Operator.next (Operator.readiness (Tree.merge m inlets)).2 =
        (.ok answer, Tree.merge v after) ∧ v.Follows fresh types scan after fewer ∧
      rounds fresh scan m.cursor.left (queues inlets flows) =
        (rounds fresh scan v.cursor.left (queues after fewer)).map (answer.rows ++ ·) ∧
      (answer = .endOfStream → v.cursor.left = []) ∧
      (answer ≠ .endOfStream →
        answersLeft fewer + v.cursor.left.length < answersLeft flows + m.cursor.left.length) := by
  obtain ⟨emitted, holds⟩ := follows.holds
  have ready : ∀ inlet ∈ inlets, inlet.ended = false →
      (Operator.readiness inlet.child).1 = .ready := by
    intro inlet member going
    obtain ⟨answers, _, own⟩ := exists_right follows.follow member
    exact (own.plays going).1.ready
  have asked : Operator.readiness (Tree.merge m inlets) =
      (.ready, .merge m (inlets.map Inlet.ask)) := by
    change Tree.readiness (.merge m inlets) = _
    rw [Tree.readiness, if_neg (by simp [follows.stands.running]), Tree.inletsReadiness_eq ready]
  have pulled : Operator.next (Tree.merge m (inlets.map Inlet.ask)) =
      ((m.next Operator.hasNext (Tree.lanes (inlets.map Inlet.ask))).map id fun r =>
        Tree.merge r.1 r.2) := by
    change Tree.next (.merge m _) = _
    rw [Tree.next]
    rfl
  have follow : List.Forall₂ (Lane.Follows types scan)
      ((Tree.lanes (inlets.map Inlet.ask)).map fun lane =>
        { lane with inlet := { lane.inlet with mayPull := true } }) flows := by
    rw [Tree.lanes_eq, List.map_map, List.map_map, List.forall₂_map_left_iff]
    exact follows.follow.imp fun _ _ own => own.ask
  have queued : queues ((Tree.lanes (inlets.map Inlet.ask)).map (·.inlet)) flows =
      queues inlets flows := by
    rw [Tree.inlet_lanes]
    simp only [queues, List.zipWith_map_left, Inlet.queue_ask]
  rw [asked, pulled, ← queued]
  rcases next_rounds gather follows.stands holds follow with
    ⟨e, v, after, failed, fails⟩ | ⟨answer, v, after, fewer, given, later, rest, last, nearer⟩
  · exact .inl ⟨e, _, by rw [failed]; rfl, fails⟩
  · exact .inr ⟨answer, v, after, fewer, by rw [given]; rfl, later, rest, last, nearer⟩

/-- Driven long enough, a merge over children that are always ready comes to its
end with the rows of its rounds. -/
theorem Follows.drive_eq (follows : m.Follows fresh types scan inlets flows)
    (gather : ∀ a ∈ fresh, a.Gathers types scan) {rows : List Row}
    (made : rounds fresh scan m.cursor.left (queues inlets flows) = .ok rows) :
    ∃ blocks needed, (∀ pulls, drive pulls (Tree.merge m inlets) =
        .ok (if needed < pulls then some blocks else none)) ∧
      blocks.flatMap Block.rows = rows := by
  generalize size : answersLeft flows + m.cursor.left.length = left
  induction left using Nat.strong_induction_on generalizing m inlets flows rows with
  | _ left ih =>
  rcases follows.next_spec gather with
    ⟨e, tree, _, fails⟩ | ⟨answer, v, after, fewer, given, later, rest, last, nearer⟩
  · rw [made] at fails
    contradiction
  · rw [made] at rest
    obtain ⟨others, further, rfl⟩ := map_eq_ok.1 rest.symm
    cases answer with
    | endOfStream =>
      rw [last rfl] at further
      cases further
      refine ⟨[], 0, ?_, rfl⟩
      rintro (_ | pulls) <;> simp [drive, given]
    | notReady =>
      obtain ⟨blocks, needed, driven, same⟩ := ih _ (size ▸ nearer (by simp)) later further rfl
      refine ⟨blocks, needed + 1, ?_, by rw [same]; rfl⟩
      rintro (_ | pulls) <;> simp [drive, given, driven]
    | block block =>
      obtain ⟨blocks, needed, driven, same⟩ := ih _ (size ▸ nearer (by simp)) later further rfl
      refine ⟨block :: blocks, needed + 1, ?_, by rw [List.flatMap_cons, same]; rfl⟩
      rintro (_ | pulls)
      · rfl
      · simp only [drive, given, driven, Except.map, Nat.add_lt_add_iff_right]
        split <;> rfl

theorem Follows.rounds_of_drive (follows : m.Follows fresh types scan inlets flows)
    (gather : ∀ a ∈ fresh, a.Gathers types scan) {pulls : Nat} {blocks : List Block}
    (driven : drive pulls (Tree.merge m inlets) = .ok (some blocks)) :
    rounds fresh scan m.cursor.left (queues inlets flows) = .ok (blocks.flatMap Block.rows) := by
  induction pulls generalizing m inlets flows blocks with
  | zero => cases driven
  | succ pulls ih =>
  obtain ⟨left, answer, t, same, pulled, ends⟩ := exists_of_drive driven
  obtain rfl : pulls = left := Nat.succ.inj same
  rcases follows.next_spec gather with
    ⟨e, tree, failed, _⟩ | ⟨given, v, after, fewer, called, later, rest, last, _⟩
  · rw [failed] at pulled
    cases pulled
  · rw [called] at pulled
    cases pulled
    rcases ends with ⟨rfl, rfl⟩ | ⟨_, more, others, rfl⟩
    · rw [rest, last rfl]
      rfl
    · rw [rest, ih later others, List.flatMap_append, answer.flatMap_blocks]
      rfl

end MergeStage
end WindowFold
