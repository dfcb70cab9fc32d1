import WindowFold.Proofs.ClippedQueries
import WindowFold.Proofs.FedRuns

/-! A window stage that is fed over a channel, against the same stage over a replay of the
same blocks. Whatever the producer and the caller of the driver do, and in whatever order,
what the driver has given when it reports the end are the rows of the replay. -/
namespace WindowFold

/-- A driver that is fed over a channel. -/
structure Supply where
  session : Session
  /-- The blocks that the producer has still to send. -/
  unsent : List Block
  /-- The turns of the driver so far. -/
  turns : List Turn

namespace Supply

/-- What may happen next. -/
inductive Move where
  /-- The producer sends its next block, if the channel takes it. After the last one it
  drops its sender. -/
  | produce
  /-- A poll of a future of the driver is some of these. -/
  | turn
  /-- The pending future of the driver is dropped. -/
  | giveUp
  deriving DecidableEq

def start (name : String) (root : Tree Source) (blocks : List Block) : Supply :=
  ⟨.start name root, blocks, []⟩

def step (channel : String) (f : Supply) : Move → Supply
  | .produce =>
    match f.unsent with
    | [] => { f with session := f.session.step (.dropSender channel) }
    | block :: rest =>
      { f with
        session := f.session.step (.send channel block)
        unsent :=
          if (f.session.root.send channel block).1 = .accepted then rest else block :: rest }
  | .turn =>
    { f with
      session := f.session.step .turn
      turns := f.turns ++ [(f.session.driver.turn f.session.awaited).1] }
  | .giveUp => { f with session := f.session.step .giveUp }

def run (channel : String) (f : Supply) (moves : List Move) : Supply := moves.foldl (step channel) f

def blocks (f : Supply) : List Block := f.turns.flatMap Turn.blocks

def toRun (f : Supply) : Run (Tree Source) := ⟨f.session.driver, f.blocks, f.session.awaited⟩

/-- What the driver comes to: nothing fails, and whoever is told that the end is reached
has been given these rows. -/
structure Gives (f : Supply) (rows : List Row) : Prop where
  turns : ∀ failure, .failed failure ∉ f.turns
  ended : .ended ∈ f.turns → f.blocks.flatMap Block.rows = rows
  nextBlock : f.session.awaited = none → ∀ failure, f.session.driver.nextBlock.1 ≠ .failed failure
  none : f.session.awaited = none → f.session.driver.nextBlock.1 = .none →
    f.blocks.flatMap Block.rows = rows
  poll : ∀ failure, f.toRun.poll.1 ≠ .failed failure
  finished : ∀ all, f.toRun.poll.1 = .finished all → all.flatMap Block.rows = rows

/-- No turn has failed, and of these rows those that are not given yet are owed. -/
inductive Keeps (types : List ScalarType) (scan : Scan) (fresh : List Aggregator) (limits : Limits)
    (channel : String) (rows : List Row) (f : Supply) : Prop where
  | intro (w : WindowStage) (e : Exchange) (kept : Option Block) (blocks : List Block)
      (rest : List Row)
      (supplied : f.session.Supplied types scan fresh limits channel f.unsent rest w
        (.exchange e) kept blocks)
      (given : rows = f.blocks.flatMap Block.rows ++ rest)
      (well : ∀ failure, .failed failure ∉ f.turns) (last : .ended ∈ f.turns → rest = []) :
      Keeps types scan fresh limits channel rows f

variable {types : List ScalarType} {scan : Scan} {fresh : List Aggregator} {limits : Limits}
  {channel : String} {rows : List Row} {f : Supply}

theorem Keeps.produce (keeps : f.Keeps types scan fresh limits channel rows) :
    (f.step channel .produce).Keeps types scan fresh limits channel rows := by
  obtain ⟨w, e, kept, blocks, rest, supplied, given, well, last⟩ := keeps
  rw [step]
  split
  next none =>
    rw [none] at supplied
    exact .intro w e.dropSender.2 kept blocks rest (none ▸ supplied.dropSender) given well last
  next block others more =>
    rw [more] at supplied
    exact .intro w (e.send block).2 kept blocks rest supplied.send given well last

theorem Keeps.turn (prepared : Prepared types scan fresh)
    (keeps : f.Keeps types scan fresh limits channel rows) :
    (f.step channel .turn).Keeps types scan fresh limits channel rows := by
  obtain ⟨w, e, kept, blocks, rest, supplied, given, well, last⟩ := keeps
  obtain ⟨v, t, left, now, after, later, more, fine, ends, _, fed, _⟩ := supplied.turn prepared
  rw [← Session.step_turn] at later
  obtain ⟨e, rfl⟩ := later.bears.exists_exchange fed
  have still : rest = [] → after = [] := by
    rintro rfl
    exact (List.append_eq_nil_iff.1 more.symm).2
  refine .intro v e left now after later ?_ ?_ ?_
  · simp only [step, Supply.blocks, List.flatMap_append, List.flatMap_singleton, List.append_assoc]
    rw [← more]
    exact given
  · intro failure member
    rcases List.mem_append.1 member with before | last
    · exact well failure before
    · exact fine failure (List.mem_singleton.1 last).symm
  · intro ended
    rcases List.mem_append.1 ended with before | now
    · exact still (last before)
    · exact ends (List.mem_singleton.1 now).symm

theorem Keeps.giveUp (keeps : f.Keeps types scan fresh limits channel rows) :
    (f.step channel .giveUp).Keeps types scan fresh limits channel rows := by
  obtain ⟨w, e, kept, blocks, rest, supplied, given, well, last⟩ := keeps
  obtain ⟨t, supplied, fed⟩ := supplied.giveUp
  obtain ⟨e, rfl⟩ := supplied.bears.exists_exchange fed
  exact .intro w e kept blocks rest supplied given well last

theorem Keeps.run (prepared : Prepared types scan fresh)
    (keeps : f.Keeps types scan fresh limits channel rows) (moves : List Move) :
    (f.run channel moves).Keeps types scan fresh limits channel rows := by
  induction moves generalizing f with
  | nil => exact keeps
  | cons move rest ih =>
    apply ih
    cases move with
    | produce => exact keeps.produce
    | turn => exact keeps.turn prepared
    | giveUp => exact keeps.giveUp

theorem Keeps.gives (prepared : Prepared types scan fresh)
    (keeps : f.Keeps types scan fresh limits channel rows) : f.Gives rows := by
  obtain ⟨w, e, kept, blocks, rest, supplied, given, well, last⟩ := keeps
  have all : rest = [] → f.blocks.flatMap Block.rows = rows := by
    rintro rfl
    rw [given, List.append_nil]
  have next := fun idle : f.session.awaited = none =>
    Driver.nextBlockWithin_supplied prepared f.session.driver.patience
      (show Session.Supplied types scan fresh limits channel f.unsent rest
        ⟨f.session.driver, none⟩ w (.exchange e) kept blocks from idle ▸ supplied)
  have completes : Run.Completes _ f.blocks rest f.toRun.poll.1 :=
    Run.pollWithin_completes prepared f.session.driver.patience (r := f.toRun) supplied
  refine ⟨well, fun ended => all (last ended), fun idle => (next idle).1,
    fun idle ended => all ((next idle).2 ended), ?_, ?_⟩
  · intro failure failed
    rw [failed] at completes
    cases completes
  · intro blocks finished
    rw [finished] at completes
    cases completes with
    | finished _ more gives same =>
      rw [gives, List.flatMap_append, ← same, given]

end Supply

theorem Session.supplied_start {types : List ScalarType} {scan : Scan} {fresh : List Aggregator}
    {channel : String} {unsent blocks : List Block} {rest : List Row} {source : Source}
    (context : Context) (series : WindowSeries) (name : String)
    (fit : Aggregator.Fit types scan blocks) (bears : source.Bears channel unsent blocks)
    (owes : Filling.rows scan fresh (Cursor.start series scan).left none blocks = .ok rest) :
    (start name
        (Tree.window (.create context fresh (.start series scan)) (.source source))).Supplied
      types scan fresh context.limits channel unsent rest
      (.create context fresh (.start series scan)) source none blocks where
  root := rfl
  paused := WindowStage.paused_create context False.elim fit
  bears := bears
  owes := owes
  asked := fun waits => absurd rfl waits
  ticket := nofun

theorem Run.poll_replay {types : List ScalarType} {scan : Scan} {fresh : List Aggregator}
    {limits : Limits} {rest : List Row} {w : WindowStage} {r : Replay} {kept : Option Block}
    {blocks : List Block} (prepared : Prepared types scan fresh) {d : Driver (Tree Source)}
    {channel : String}
    (supplied : Session.Supplied types scan fresh limits channel [] rest ⟨d, none⟩ w
      (.replay r) kept blocks) :
    ∃ given run, (start d).poll = (.finished given, run) ∧ rest = given.flatMap Block.rows := by
  have completes := pollWithin_completes prepared d.patience (r := start d) supplied
  change Completes _ _ _ (start d).poll.1 at completes
  rcases polled : (start d).poll with ⟨outcome, run⟩
  rw [polled] at completes
  cases completes with
  | finished all more gives rows =>
    obtain rfl : all = more := gives
    exact ⟨all, run, rfl, rows⟩
  | pending may =>
    rcases may with fed | late
    · cases fed
    · have root : d.root = .window w (.source (.replay r)) := supplied.root
      have work : d.patience = w.windowsLeft + r.blocks.length + 1 + 1 := by
        rw [Driver.patience, root]
        rfl
      have same : r.blocks = blocks := by cases supplied.bears; rfl
      have left := w.windowsLeft_eq
      rw [same] at work
      omega

/-- A driver over a stage with aggregations of rows comes to its end with the rows of a
replay, if the same blocks are sent to it in order over a bounded channel. Neither the
order in which the producer sends and the driver takes turns nor the futures that are
dropped while they wait change them, and nothing fails. -/
theorem Query.fed_windowStage {q : Query} {context : Context} {schema : Schema}
    {stage : WindowStage} {blocks : List Block} {replay : Replay} {origin : String}
    (accepted : q.windowStage context schema = .ok stage)
    (raw : ∀ spec ∈ q.aggregations, spec.step.readsRows = true)
    (replayed : Replay.create origin schema blocks = .ok replay)
    (ordered : ∀ b ∈ blocks, q.scan.Ordered b.rows) (name channel : String) (capacity : Nat) :
    ∃ given run,
      (Run.start (.create name (Tree.window stage (.source (Source.replay replay))))).poll =
        (.finished given, run) ∧
      ∀ moves, ((Supply.start name (Tree.window stage
        (.source (Source.exchange (.create channel schema capacity)))) blocks).run channel
          moves).Gives (given.flatMap Block.rows) := by
  obtain ⟨fresh, series, made, windows, rfl⟩ := windowStage_eq_ok accepted
  have prepared := prepared made
  obtain ⟨fits, rfl⟩ := Replay.create_eq_ok.1 replayed
  have fit : Aggregator.Fit schema.types q.scan blocks := fun b member =>
    ⟨fits b member, ordered b member⟩
  obtain ⟨rows, owes⟩ := Filling.rows_ok (reads made raw) (Cursor.start series q.scan).left
    (show Aggregator.Fit schema.types q.scan (Option.toList none ++ blocks) from fit)
  have replays : (Source.replay ⟨origin, schema, blocks, false⟩).Bears channel [] blocks :=
    .replay rfl
  have values := Session.supplied_start context series name fit replays owes
  obtain ⟨given, run, finished, rfl⟩ := Run.poll_replay prepared values
  have fed := Session.supplied_start context series name fit
    (.exchange rfl (Exchange.sound_create channel schema capacity) fun gone => absurd gone nofun)
      owes
  have start :
      (Supply.start name (Tree.window _ (.source (.exchange (.create channel schema capacity))))
      blocks).Keeps schema.types q.scan fresh context.limits channel (given.flatMap Block.rows) :=
    .intro _ _ none blocks _ fed rfl nofun nofun
  exact ⟨given, run, finished, fun moves => (start.run prepared moves).gives prepared⟩

namespace Query

/-- Rows of three windows, with an empty block between them. -/
def sampleSupply : List Block :=
  [sampleBlock [3, 7, 12] [some 6, none, some 1] rfl, sampleEmpty,
    sampleBlock [15, 25] [some 8, some 2] rfl]

/-- The driver waits before the first block and before the second, and both waits are given
up. A block that finds the channel full is sent again. -/
def sampleMoves : List Supply.Move :=
  [.turn, .giveUp, .produce, .produce, .turn, .turn, .giveUp, .produce, .turn, .produce, .turn,
    .produce, .turn, .turn]

theorem fed_windowStage_sample :
    let schema := sampleEmpty.schema
    ∃ stage replay given run,
      let f := (Supply.start "driver" (Tree.window stage
        (.source (Source.exchange (.create "channel" schema 1)))) sampleSupply).run "channel"
          sampleMoves
      sample.windowStage (rowsAtMost 1) schema = .ok stage ∧
      (∀ spec ∈ sample.aggregations, spec.step.readsRows = true) ∧
      Replay.create "replay" schema sampleSupply = .ok replay ∧
      (∀ b ∈ sampleSupply, sample.scan.Ordered b.rows) ∧
      (Run.start (.create "driver" (Tree.window stage (.source (Source.replay replay))))).poll =
        (.finished given, run) ∧
      f.blocks.length = 3 ∧ .ended ∈ f.turns ∧
      f.blocks.flatMap Block.rows = given.flatMap Block.rows := by
  intro schema
  obtain ⟨stage, replay, accepted, replayed, several, ended⟩ :
      ∃ stage replay, sample.windowStage (rowsAtMost 1) schema = .ok stage ∧
        Replay.create "replay" schema sampleSupply = .ok replay ∧
        let f := (Supply.start "driver" (Tree.window stage
          (.source (Source.exchange (.create "channel" schema 1)))) sampleSupply).run "channel"
            sampleMoves
        f.blocks.length = 3 ∧ .ended ∈ f.turns := ⟨_, _, rfl, rfl, by decide +kernel⟩
  have raw : ∀ spec ∈ sample.aggregations, spec.step.readsRows = true := by decide
  have ordered : ∀ b ∈ sampleSupply, sample.scan.Ordered b.rows := by decide
  obtain ⟨given, run, finished, gives⟩ :=
    fed_windowStage accepted raw replayed ordered "driver" "channel" 1
  exact ⟨stage, replay, given, run, accepted, raw, replayed, ordered, finished, several, ended,
    (gives sampleMoves).ended ended⟩

end Query
end WindowFold
