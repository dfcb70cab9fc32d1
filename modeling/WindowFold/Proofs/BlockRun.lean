import WindowFold.Proofs.Filling

/-! A window stage call by call, over a child that gives one block after the other.
However its calls fall, it makes the rows that it owes for the blocks to come. A call
that fails for something that was refused owes the rest as before; the rows that it
has made are not among them. -/
namespace WindowFold

/-- A block of which no row can be taken in: the first aggregation to take it misses a
column. Its rows are met before those to come. -/
structure Stale (scan : Scan) (fresh : List Aggregator) (block : Block) (coming : List Block) :
    Prop where
  barred : WindowStage.bars block fresh = true
  ordered : scan.Ordered block.rows
  before : ∀ r ∈ block.rows, ∀ b ∈ coming, ∀ s ∈ b.rows, scan.inOrder r.time s.time = true

section
variable {scan : Scan} {fresh : List Aggregator} {block tail : Block} {coming : List Block}
  {range : TimeRange}

theorem Stale.beyond (stale : Stale scan fresh block coming)
    (rest : tail.rows = Row.beyond range scan block.rows)
    (width : tail.columnCount = block.columnCount) : Stale scan fresh tail coming := by
  have part : List.Sublist tail.rows block.rows := by
    rw [rest]
    exact (List.dropWhile_sublist _).trans (List.dropWhile_sublist _)
  constructor
  · rw [WindowStage.bars_of_columnCount width]
    exact stale.barred
  · exact stale.ordered.sublist part
  · exact fun r member => stale.before r (part.subset member)

/-- If any of it is past a window, so are all rows to come. -/
theorem Stale.past {rows : List Row} (stale : Stale scan fresh tail coming)
    (rest : tail.rows = Row.beyond range scan rows) (some : tail.isEmpty = false) :
    ∀ b ∈ coming, ∀ s ∈ b.rows, s.past range scan = true := by
  intro b listed s member
  obtain ⟨r, others, first⟩ := List.exists_cons_of_ne_nil
    (mt (Block.isEmpty_iff tail).2 (by simp [some]))
  have head : (Row.beyond range scan rows).head? = .some r := by
    rw [← rest, first]
    rfl
  have inside : r ∈ tail.rows := first ▸ List.mem_cons_self
  exact TimeRange.isPassedBy_of_inOrder (stale.before r inside b listed s member)
    (Row.head?_beyond head)

end

/-- What a pull brings: the next of the blocks to come, or none of them. A rough child
may fail, or give a block that is refused, and the blocks to come stay the same. -/
inductive Deal (rough : Prop) (scan : Scan) (fresh : List Aggregator) :
    List Block → List Block → Except Failure Answer → Prop where
  | block (b : Block) (rest : List Block) : Deal rough scan fresh (b :: rest) rest (.ok (.block b))
  | wait (blocks : List Block) : Deal rough scan fresh blocks blocks (.ok .notReady)
  | ended : Deal rough scan fresh [] [] (.ok .endOfStream)
  | failed (blocks : List Block) (e : Failure) (may : rough) :
      Deal rough scan fresh blocks blocks (.error e)
  | disordered (blocks : List Block) {b : Block} (may : rough) (bad : ¬ scan.Ordered b.rows) :
      Deal rough scan fresh blocks blocks (.ok (.block b))
  | barred (blocks : List Block) {b : Block} (may : rough) (stale : Stale scan fresh b blocks) :
      Deal rough scan fresh blocks blocks (.ok (.block b))

namespace WindowStage

def owed (w : WindowStage) (fresh : List Aggregator) (kept : Option Block) (blocks : List Block) :
    Except Failure (List Row) :=
  match w.active with
  | none => Filling.rows w.scan fresh w.cursor.left kept blocks
  | some window =>
    Filling.finish w.scan fresh window w.cursor.left
      (Filling.settle w.scan window.range blocks ⟨w.aggregators, kept⟩)

/-- Where a stage stands between two calls. Of the last block it has what is kept, or
the rest of one that is refused. -/
structure Works (rough : Prop) (types : List ScalarType) (scan : Scan) (fresh : List Aggregator)
    (w : WindowStage) (kept : Option Block) (blocks : List Block) : Prop where
  sameScan : w.cursor.scan = scan
  idle : ∀ range, enterAll w.aggregators range = enterAll fresh range
  busy : ∀ window ∈ w.active, Entered fresh window.range w.aggregators
  real : rough → ∀ window ∈ w.todo, window.range.contains window.outputTime = true
  cached : w.cached = kept ∨ rough ∧ kept = none ∧ ∃ block ∈ w.cached, Stale scan fresh block blocks
  fit : Aggregator.Fit types scan (kept.toList ++ blocks)

variable {rough : Prop} {types : List ScalarType} {scan : Scan} {fresh : List Aggregator}
  {w v : WindowStage} {kept : Option Block} {blocks : List Block} {window : Window}

theorem owed_active (active : w.active = some window) : w.owed fresh kept blocks =
    Filling.finish w.scan fresh window w.cursor.left
      (Filling.settle w.scan window.range blocks ⟨w.aggregators, kept⟩) := by
  rw [owed, active]

theorem rest_of_owes {outcome : Except Failure (List Row)} {rows made : List Row}
    (owes : Except.ok rows = outcome.map (made ++ ·)) :
    ∃ rest, outcome = .ok rest ∧ rows = made ++ rest := by
  cases outcome with
  | error e => contradiction
  | ok rest => exact ⟨rest, rfl, Except.ok.inj owes⟩

theorem owed_nil (none : w.todo = []) : w.owed fresh kept blocks = .ok [] := by
  obtain ⟨inactive, last⟩ := List.append_eq_nil_iff.1 none
  rw [owed, Option.toList_eq_nil_iff.1 inactive, last]
  rfl

def rowOf (w : WindowStage) (window : Window) : Row := ⟨window.outputTime, outputRow w.aggregators⟩

def leave (w : WindowStage) : WindowStage := { w with active := none }

inductive Fed (rough : Prop) (types : List ScalarType) (scan : Scan) (fresh : List Aggregator)
    (w : WindowStage) (kept : Option Block) (blocks : List Block) (window : Window) :
    Except Failure Bool → WindowStage → List Block → Prop where
  | failed (e : Failure) (v : WindowStage) (now : List Block)
      (owes : w.owed fresh kept blocks = .error e) :
      Fed rough types scan fresh w kept blocks window (.error e) v now
  | refused (e : Failure) (v : WindowStage) (now : List Block) (may : rough)
      (works : v.Works rough types scan fresh none now)
      (owes : w.owed fresh kept blocks = v.owed fresh none now)
      (used : v.mayPull = w.mayPull → w.cached ≠ none ∧ v.cached = none) :
      Fed rough types scan fresh w kept blocks window (.error e) v now
  | done (v : WindowStage) (left : Option Block) (now : List Block)
      (works : v.leave.Works rough types scan fresh left now)
      (entered : Entered fresh window.range v.aggregators)
      (owes : w.owed fresh kept blocks =
        (v.leave.owed fresh left now).map (v.rowOf window :: ·)) :
      Fed rough types scan fresh w kept blocks window (.ok true) v now
  | more (v : WindowStage) (now : List Block) (works : v.Works rough types scan fresh none now)
      (owes : w.owed fresh kept blocks = v.owed fresh none now) (open_ : v.allSettled = false) :
      Fed rough types scan fresh w kept blocks window (.ok false) v now

/-- Uses up the rows at hand. Nothing is kept of them if the window needs more. -/
def useUp (w : WindowStage) (range : TimeRange) : Attempt WindowStage Bool :=
  match w.feedCached range with
  | (.ok false, v) => (.ok false, { v with cached := none })
  | fed => fed

theorem Works.refill (works : w.Works rough types scan fresh kept blocks)
    (active : w.active = some window) {aggregators : List Aggregator}
    (entered : Entered fresh window.range aggregators) {left : Option Block}
    (fit : Aggregator.Fit types scan (left.toList ++ blocks)) :
    Works rough types scan fresh
      { w with aggregators := aggregators, cached := left } left blocks where
  sameScan := works.sameScan
  idle := entered.enterAll_eq
  busy := fun other member => by
    obtain rfl : window = other := Option.some.inj (active.symm.trans member)
    exact entered
  real := works.real
  cached := .inl rfl
  fit := fit

theorem Works.drop {block : Block} (works : w.Works rough types scan fresh none (block :: blocks)) :
    w.Works rough types scan fresh none blocks where
  sameScan := works.sameScan
  idle := works.idle
  busy := works.busy
  real := works.real
  cached := by
    rcases works.cached with held | ⟨may, same, b, held, stale⟩
    · exact .inl held
    · refine .inr ⟨may, same, b, held, { stale with before := fun r member c later => ?_ }⟩
      exact stale.before r member c (List.mem_cons_of_mem block later)
  fit := fun b later => works.fit b (List.mem_cons_of_mem block later)

theorem Works.hold (works : w.Works rough types scan fresh none blocks) (may : rough)
    {block : Block} (stale : Stale scan fresh block blocks) :
    Works rough types scan fresh { w with cached := some block } none blocks :=
  { works with cached := .inr ⟨may, rfl, block, rfl, stale⟩ }

theorem Works.leave (works : w.Works rough types scan fresh kept blocks) :
    w.leave.Works rough types scan fresh kept blocks where
  sameScan := works.sameScan
  idle := works.idle
  busy := nofun
  real := fun may x member => works.real may x (List.mem_append_right _ member)
  cached := works.cached
  fit := works.fit

/-- With what is kept at hand, the stage does what its specification does. -/
theorem useUp_kept (prepared : Prepared types scan fresh)
    (works : w.Works rough types scan fresh kept blocks) (active : w.active = some window)
    (same : w.cached = kept) :
    Fed rough types scan fresh w kept blocks window (w.useUp window.range).1
      (w.useUp window.range).2 blocks := by
  have entered := works.busy window active
  have sameScan : w.scan = scan := works.sameScan
  have owes : w.owed fresh kept blocks = _ := owed_active active
  have filling : w.filling = ⟨w.aggregators, kept⟩ := by rw [WindowStage.filling, same]
  rw [sameScan] at owes
  rw [useUp, feedCached_eq, sameScan, filling]
  obtain ⟨keeps, fit⟩ := Filling.feed_keeps (f := ⟨w.aggregators, kept⟩) (entered.steady prepared)
    (fun b member => works.fit b (List.mem_append_left _ member)) window.range
  have after := entered.trans keeps
  have coming : Aggregator.Fit types scan blocks := fun b member =>
    works.fit b (List.mem_append_right _ member)
  rcases fed : Filling.feed ⟨w.aggregators, kept⟩ scan window.range with ⟨e | _ | _, g⟩
  all_goals rw [fed] at after fit
  · apply Fed.failed
    rw [owes, Filling.settle_error fed]
    rfl
  · refine .more _ _ (works.refill active after coming) ?_ (Filling.unsettled_of_feed fed)
    rw [owes, owed_active (by exact active)]
    change _ = Filling.finish w.scan fresh window w.cursor.left
      (Filling.settle w.scan window.range blocks ⟨g.aggregators, none⟩)
    rw [Filling.settle_false fed, sameScan]
  · refine .done _ g.kept _ (works.refill active after ?_).leave after ?_
    · intro b member
      exact (List.mem_append.1 member).elim (fit b) (coming b)
    · rw [owes, Filling.settle_true fed, ← sameScan]
      rfl

/-- The rest of a stale block is as good as none, until its rows are met. -/
theorem useUp_stale (prepared : Prepared types scan fresh)
    (works : w.Works rough types scan fresh none blocks) (active : w.active = some window)
    (may : rough) {block : Block} (cached : w.cached = some block)
    (stale : Stale scan fresh block blocks) :
    Fed rough types scan fresh w none blocks window (w.useUp window.range).1
      (w.useUp window.range).2 blocks := by
  have entered := works.busy window active
  have sameScan : w.scan = scan := works.sameScan
  have owes : w.owed fresh none blocks = _ := owed_active active
  have filling : w.filling = ⟨w.aggregators, some block⟩ := by rw [WindowStage.filling, cached]
  rw [sameScan] at owes
  rw [useUp, feedCached_eq, sameScan, filling]
  cases settled : w.aggregators.all (·.isSettled) with
  | true =>
    rw [Filling.feed_settled (by exact settled)]
    refine .done _ none _ (works.hold may stale).leave entered ?_
    rw [owes, Filling.settle_true (Filling.feed_settled (by exact settled)), ← sameScan]
    rfl
  | false =>
    have barred : bars block w.aggregators = true := by
      rw [entered.bars_eq]
      exact stale.barred
    -- Without the stale block the stage is as before.
    have dropped : Works rough types scan fresh { w with cached := none } none blocks :=
      { works with cached := .inl rfl }
    rcases Filling.feed_barred (entered.within prepared) settled barred stale.ordered with
      ⟨e, failed⟩ | nothing | ⟨tail, done, rest, some, width⟩
    · rw [failed]
      exact .refused e _ _ may dropped rfl fun _ => ⟨by simp [cached], rfl⟩
    · rw [nothing]
      exact .more _ _ dropped rfl settled
    · rw [done]
      have left := stale.beyond rest width
      have real := works.real may window (List.mem_append_left _ (Option.mem_toList.2 active))
      have ordered : ∀ b ∈ blocks, scan.Ordered b.rows := fun b member => (works.fit b member).2
      refine .done _ none _ (works.hold may left).leave entered ?_
      rw [owes, Filling.finish_past prepared.unsettled settled
        (entered.within prepared) real ordered (left.past rest some), ← sameScan]
      rfl

theorem useUp_fed (prepared : Prepared types scan fresh)
    (works : w.Works rough types scan fresh kept blocks) (active : w.active = some window) :
    Fed rough types scan fresh w kept blocks window (w.useUp window.range).1
      (w.useUp window.range).2 blocks := by
  rcases works.cached with same | ⟨may, rfl, block, cached, stale⟩
  · exact useUp_kept prepared works active same
  · exact useUp_stale prepared works active may cached stale

theorem useUp_frame (w : WindowStage) (range : TimeRange) :
    ∃ aggregators cached, (w.useUp range).2 =
      { w with aggregators := aggregators, cached := cached } := by
  obtain ⟨aggregators, cached, frame⟩ := w.feedCached_frame range
  rcases fed : w.feedCached range with ⟨e | _ | _, v⟩
  all_goals
    rw [fed] at frame
    dsimp only at frame
    rw [useUp, fed, frame]
    exact ⟨_, _, rfl⟩

end WindowStage

section
variable {σ : Type} {hasNext : σ → Except Failure Bool} {pull : σ → Attempt σ Answer}
  {rough : Prop} {types : List ScalarType} {scan : Scan} {fresh : List Aggregator}
  {w v : WindowStage} {kept : Option Block} {blocks now after : List Block} {window : Window}
  {child c : σ}

def Told (hasNext : σ → Except Failure Bool) (child : σ) (blocks : List Block) : Prop :=
  ∃ more, hasNext child = .ok more ∧ (more = false → blocks = [])

/-- What a stage can rely on in a call: what the child tells, and what a pull of it
brings, after which other blocks are to come. -/
structure Hands (rough : Prop) (scan : Scan) (fresh : List Aggregator)
    (hasNext : σ → Except Failure Bool) (pull : σ → Attempt σ Answer) (w : WindowStage) (child : σ)
    (blocks after : List Block) : Prop where
  ended : w.inputEnded = true → blocks = []
  told : w.inputEnded = false → Told hasNext child blocks
  pulled : w.inputEnded = false → w.mayPull = true → hasNext child = .ok true →
    Deal rough scan fresh blocks after (pull child).1 ∧ Told hasNext (pull child).2 after

/-- Between two points of a call the child is left as it was, or pulled once. -/
inductive Moved (hasNext : σ → Except Failure Bool) (pull : σ → Attempt σ Answer) (w : WindowStage)
    (child : σ) (blocks after : List Block) (v : WindowStage) : σ → List Block → Prop where
  | stays (mayPull : v.mayPull = w.mayPull) (ended : v.inputEnded = w.inputEnded)
      (cached : w.cached = none → v.cached = none) :
      Moved hasNext pull w child blocks after v child blocks
  | pulled (before : w.mayPull = true) (going : w.inputEnded = false)
      (more : hasNext child = .ok true) (spent : v.mayPull = false)
      (ended : v.inputEnded = true → after = [])
      (goesOn : v.inputEnded = false → (pull child).1 ≠ .ok .endOfStream) :
      Moved hasNext pull w child blocks after v (pull child).2 after

namespace WindowStage

theorem advance_eq (hasNext : σ → Except Failure Bool) (w : WindowStage) (child : σ)
    (range : TimeRange) : w.advance hasNext child range =
      match w.useUp range with
      | (.error e, v) => (.error e, v)
      | (.ok true, v) => (.ok .nothing, v)
      | (.ok false, v) =>
        if v.inputEnded then (.ok .nothing, v)
        else ((hasNext child).map fun more => if more then .input else .nothing, v) := by
  rw [advance, useUp]
  rcases w.feedCached range with ⟨e | _ | _, v⟩
  · rfl
  · dsimp only
    split
    · rfl
    · rcases hasNext child with e | _ | _ <;> rfl
  · rfl

theorem Fed.close (fed : Fed rough types scan fresh w kept blocks window (.ok false) v [])
    (active : v.active = some window) :
    Fed rough types scan fresh w kept blocks window (.ok true) v [] := by
  cases fed with
  | more _ _ works owes open_ =>
    refine .done v none [] works.leave (works.busy window active) ?_
    rw [owes, owed_active active, Filling.settle_nil open_]
    rfl

theorem advance_fed (prepared : Prepared types scan fresh)
    (works : w.Works rough types scan fresh kept blocks) (active : w.active = some window)
    (ended : w.inputEnded = true → blocks = [])
    (told : w.inputEnded = false → Told hasNext child blocks) :
    Fed rough types scan fresh w kept blocks window
      ((w.advance hasNext child window.range).1.map (· = .nothing))
      (w.advance hasNext child window.range).2 blocks := by
  have fed := useUp_fed prepared works active
  obtain ⟨_, _, frame⟩ := w.useUp_frame window.range
  rw [advance_eq]
  rcases used : w.useUp window.range with ⟨e | _ | _, v⟩
  all_goals rw [used] at fed frame
  · exact fed
  · have same : v.active = some window := by
      rw [show v = _ from frame]
      exact active
    have going : v.inputEnded = w.inputEnded := by rw [show v = _ from frame]
    dsimp only
    cases open_ : v.inputEnded with
    | true =>
      obtain rfl := ended (going ▸ open_)
      exact fed.close same
    | false =>
      obtain ⟨more, tells, last⟩ := told (going ▸ open_)
      rw [tells]
      cases more with
      | false =>
        obtain rfl := last rfl
        exact fed.close same
      | true => exact fed
  · exact fed

theorem cached_advance (empty : w.cached = none) (hasNext : σ → Except Failure Bool) (child : σ)
    (range : TimeRange) : (w.advance hasNext child range).2.cached = none := by
  have used : (w.useUp range).2.cached = none := by
    cases settled : w.allSettled with
    | true => simp only [useUp, feedCached, settled, empty, if_true]
    | false => simp only [useUp, feedCached, settled, empty, Bool.false_eq_true, if_false]
  rw [advance_eq]
  split
  next failed =>
    rw [failed] at used
    exact used
  next done =>
    rw [done] at used
    exact used
  next more =>
    rw [more] at used
    split <;> exact used

theorem accept_deal (works : w.Works rough types scan fresh none blocks)
    (active : w.active = some window) (open_ : w.allSettled = false) {answer : Answer}
    (deal : Deal rough scan fresh blocks after (.ok answer)) :
    (∃ e, w.accept answer = .error e ∧ rough ∧ after = blocks ∧ answer ≠ .endOfStream) ∨
      ∃ x left, w.accept answer = .ok x ∧ x.Works rough types scan fresh left after ∧
        w.owed fresh none blocks = x.owed fresh left after ∧
        x.active = some window ∧ x.mayPull = w.mayPull ∧
        (x.inputEnded = true → w.inputEnded = true ∨ after = []) ∧
        (x.inputEnded = false → answer ≠ .endOfStream) := by
  have accepts : ∀ b : Block, scan.Ordered b.rows →
      w.accept (.block b) = .ok (if b.isEmpty then w else { w with cached := some b }) := by
    intro b ordered
    rw [accept, show w.scan = scan from works.sameScan, (b.checkScanOrder_eq_ok_iff scan).2 ordered]
  cases deal with
  | block b =>
    obtain ⟨_, ordered⟩ := works.fit b (by simp)
    refine .inr ⟨_, if b.isEmpty then none else some b, accepts b ordered, ?_⟩
    rw [owed_active active, Filling.settle_none open_]
    cases empty : b.isEmpty with
    | true =>
      exact ⟨works.drop, (owed_active active).symm, active, rfl, .inl, by simp⟩
    | false =>
      exact ⟨{ works with
          cached := .inl rfl
          fit := works.fit },
        (owed_active (w := { w with cached := some b }) active).symm, active, rfl, .inl, by simp⟩
  | wait => exact .inr ⟨w, none, rfl, works, rfl, active, rfl, .inl, by simp⟩
  | ended =>
    refine .inr ⟨{ w with inputEnded := true }, none, rfl, { works with }, rfl, active, rfl, ?_,
      by simp⟩
    exact fun _ => .inr rfl
  | @disordered _ b may bad =>
    refine .inl ?_
    rw [accept, show w.scan = scan from works.sameScan]
    cases checked : b.checkScanOrder scan with
    | error e => exact ⟨e, rfl, may, rfl, by simp⟩
    | ok => exact absurd ((b.checkScanOrder_eq_ok_iff scan).1 checked) bad
  | @barred _ b may stale =>
    refine .inr ⟨_, none, accepts b stale.ordered, ?_⟩
    cases empty : b.isEmpty with
    | true => exact ⟨works, rfl, active, rfl, .inl, by simp⟩
    | false => exact ⟨works.hold may stale, rfl, active, rfl, .inl, by simp⟩

/-- What is owed is owed by another stage too, which works on. -/
theorem Fed.of_owed {x : WindowStage} {left : Option Block} {outcome : Except Failure Bool}
    (same : w.owed fresh kept blocks = x.owed fresh left after)
    (pulled : w.mayPull = true ∧ v.mayPull = false)
    (fed : Fed rough types scan fresh x left after window outcome v now) :
    Fed rough types scan fresh w kept blocks window outcome v now := by
  cases fed with
  | failed e _ _ owes => exact .failed e v now (same.trans owes)
  | refused e _ _ may works owes =>
    refine .refused e v now may works (same.trans owes) fun still => ?_
    exact absurd (pulled.2.symm.trans (still.trans pulled.1)) nofun
  | done _ rest _ works entered owes => exact .done v rest now works entered (same.trans owes)
  | more _ _ works owes open_ => exact .more v now works (same.trans owes) open_

end WindowStage
end
end WindowFold
