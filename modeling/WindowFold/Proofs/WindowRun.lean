import WindowFold.Proofs.Answers
import WindowFold.Proofs.Jobs

/-! A window stage over a whole run. The rows of the child are those used so
far and those left; the active window has taken in what it can of the former,
and none of them lies in a window still to come. -/
namespace WindowFold

namespace WindowStage

def kept (w : WindowStage) : List Row := (w.cached.map Block.rows).getD []

/-- Where a stage stands in its job: the rows used and the rows left. -/
structure Stands (job : Job) (w : WindowStage) (past left : List Row) : Prop where
  rows : job.rows = past ++ left
  scan : w.cursor.scan = job.scan
  chain : w.cursor.left.Pairwise fun x y => x.range.Precedes job.scan y.range
  /-- No row used lies in a window that is still to come. -/
  ahead : ∀ x ∈ w.cursor.left, ∀ r ∈ past, r.ahead x.range job.scan = true
  idle : w.active = none → ∀ range, enterAll w.aggregators range = enterAll job.fresh range
  busy : ∀ window ∈ w.active, w.aggregators = job.aggregated window.range past ∧
    ∀ x ∈ w.cursor.left, window.range.Precedes job.scan x.range
  types : ∀ block ∈ w.cached, block.schema.types = job.types

variable {job : Job} {w : WindowStage} {past left rest : List Row} {window : Window}

theorem Stands.ordered (stands : w.Stands job past left) : job.scan.Ordered left :=
  List.Pairwise.sublist (stands.rows ▸ List.sublist_append_right past left) job.ordered

theorem Stands.sublist (stands : w.Stands job past left) : List.Sublist left job.rows :=
  stands.rows ▸ List.sublist_append_right past left

theorem Stands.keep (stands : w.Stands job past left) {cached : Option Block}
    (types : ∀ block ∈ cached, block.schema.types = job.types) :
    Stands job { w with cached := cached } past left :=
  { stands with types := types }

theorem Stands.use {used : List Row} (stands : w.Stands job past (used ++ left))
    (active : w.active = some window)
    (met : ∀ r ∈ used, r.ahead window.range job.scan = true ∨ r.within window.range = true)
    {cached : Option Block}
    (types : ∀ block ∈ cached, block.schema.types = job.types) :
    Stands job
      { w with aggregators := job.aggregated window.range (past ++ used), cached := cached }
      (past ++ used) left where
  rows := by rw [stands.rows, List.append_assoc]
  scan := stands.scan
  chain := stands.chain
  ahead x coming r member := by
    rcases List.mem_append.1 member with earlier | new
    · exact stands.ahead x coming r earlier
    · exact (stands.busy window active).2 x coming r.time (met r new)
  idle none := by rw [active] at none; contradiction
  busy other same := by
    obtain rfl : window = other := Option.some.inj (active.symm.trans same)
    exact ⟨rfl, (stands.busy window active).2⟩
  types := types

theorem kept_of_tail {tail : Block} (cached : w.cached = if tail.isEmpty then none else some tail) :
    w.kept = tail.rows := by
  rw [kept, cached]
  by_cases none : tail.isEmpty = true
  · simp [none, (Block.isEmpty_iff tail).1 none]
  · simp [none]

theorem startTime_tail {tail : Block} {range : TimeRange} {scan : Scan} {rows : List Row}
    (after : tail.rows = Row.beyond range scan rows) :
    tail.startTime?.any (range.isPassedBy scan) = !tail.rows.isEmpty := by
  rw [Block.startTime_eq]
  cases first : tail.rows.head? with
  | none => simp [List.head?_eq_none_iff.1 first]
  | some r =>
    have passed := Row.head?_beyond (after ▸ first)
    cases rows : tail.rows with
    | nil => rw [rows] at first; contradiction
    | cons => exact passed

theorem Stands.enough_of_tail (stands : w.Stands job past (left ++ rest)) {rows : List Row}
    (after : left = Row.beyond window.range job.scan rows) (some : left ≠ []) :
    job.Enough window.range past := by
  obtain ⟨r, others, same⟩ := List.exists_cons_of_ne_nil some
  have first : left.head? = Option.some r := by rw [same]; rfl
  refine Job.enough_of_outside stands.rows fun s member => ?_
  refine Row.within_of_past (Row.past_of_head stands.ordered ?_ (Row.head?_beyond (after ▸ first))
    s member)
  rw [same]
  rfl

theorem feedCached_spec (stands : w.Stands job past (w.kept ++ rest))
    (active : w.active = some window) :
    ∃ done used v, w.feedCached window.range = (.ok done, v) ∧
      v = { w with aggregators := v.aggregators, cached := v.cached } ∧
      v.Stands job (past ++ used) (v.kept ++ rest) ∧
      (done = true → job.Enough window.range (past ++ used)) ∧
      (done = false → v.kept = []) := by
  obtain ⟨aggregated, coming⟩ := stands.busy window active
  rw [feedCached]
  by_cases settled : w.allSettled = true
  · refine ⟨true, [], w, by rw [if_pos settled], rfl, by rwa [List.append_nil], fun _ => ?_, nofun⟩
    rw [List.append_nil]
    exact Job.enough_of_settled stands.rows (aggregated ▸ settled)
  rw [if_neg settled]
  cases cached : w.cached with
  | none =>
    have empty : w.kept = [] := by rw [kept, cached]; rfl
    exact ⟨false, [], w, rfl, rfl, by rwa [List.append_nil], nofun, fun _ => empty⟩
  | some block =>
    have rows : w.kept = block.rows := by rw [kept, cached]; rfl
    have types := stands.types block cached
    rw [rows] at stands
    simp only
    by_cases empty : block.isEmpty = true
    · have nothing := (Block.isEmpty_iff block).1 empty
      refine ⟨false, [], { w with cached := none }, by rw [if_pos empty], rfl, ?_, nofun,
        fun _ => rfl⟩
      rw [nothing] at stands
      rw [List.append_nil]
      exact stands.keep nofun
    rw [if_neg empty]
    have ordered : job.scan.Ordered block.rows :=
      List.Pairwise.sublist (List.sublist_append_left _ _) stands.ordered
    have part : List.Sublist block.rows job.rows :=
      (List.sublist_append_left _ _).trans stands.sublist
    have open_ : w.aggregators.all (·.isSettled) = false := by simpa [allSettled] using settled
    have fed := Job.feedOpen_skipTo types part (aggregated ▸ open_)
    have after := Block.rows_sliceFrom_skipTo block window.range job.scan
    have tailTypes : ((block.skipTo window.range job.scan).sliceFrom
        (Block.rowsWithin (block.skipTo window.range job.scan).times window.range
          job.scan).2).schema = block.schema := by rw [Block.schema_sliceFrom, Block.schema_skipTo]
    simp only [WindowStage.scan, stands.scan, aggregated, fed]
    generalize (block.skipTo window.range job.scan).sliceFrom _ = tail at after tailTypes
    -- The block falls into the rows that are used and the tail that is kept.
    rw [← Row.upTo_append_beyond ordered, ← after, List.append_assoc] at stands
    let v : WindowStage := { w with
      aggregators := job.aggregated window.range (past ++ Row.upTo window.range job.scan block.rows)
      cached := if tail.isEmpty then none else some tail }
    have further : v.Stands job (past ++ Row.upTo window.range job.scan block.rows)
        (tail.rows ++ rest) := by
      refine stands.use active (fun r member => Row.of_mem_upTo member) fun b member => ?_
      split at member
      · contradiction
      · cases member
        exact tailTypes ▸ types
    have left : v.kept = tail.rows := kept_of_tail rfl
    refine ⟨_, _, v, rfl, rfl, left ▸ further, fun done => ?_, fun going => ?_⟩
    · rw [startTime_tail after] at done
      rcases Bool.or_eq_true_iff.1 done with passed | settled
      · exact further.enough_of_tail after (by simpa using passed)
      · exact Job.enough_of_settled further.rows settled
    · rw [startTime_tail after, Bool.or_eq_false_iff, Bool.not_eq_false', List.isEmpty_iff] at going
      exact left.trans going.1

variable {σ : Type} [Operator σ] {pull : σ → Attempt σ Answer} {child : σ} {prompt : Bool}
  {pulls : Nat}

/-- What is still to come from the child. It is poised for the one pull of a
call, and has to be asked again after it. -/
structure Feeds (job : Job) (prompt : Bool) (pull : σ → Attempt σ Answer) (w : WindowStage)
    (child : σ) (pulls : Nat) (rest : List Row) : Prop where
  ended : w.inputEnded = true → rest = []
  poised : w.inputEnded = false → w.mayPull = true →
    pull child = Operator.next child ∧ Poised job.types prompt pulls rest child
  pulled : w.inputEnded = false → w.mayPull = false → Yields job.types prompt pulls rest child

theorem Feeds.tells (feeds : Feeds job prompt pull w child pulls rest)
    (going : w.inputEnded = false) :
    Tells prompt rest child := by
  cases may : w.mayPull with
  | true => exact (feeds.poised going may).2.tells
  | false => exact (feeds.pulled going may).1

theorem Stands.enough (stands : w.Stands job past []) : job.Enough window.range past :=
  Job.enough_of_outside stands.rows nofun

/-- Either no more rows can come for the window, or the child has to give more. -/
theorem advance_spec (stands : w.Stands job past (w.kept ++ rest)) (active : w.active = some window)
    (feeds : Feeds job prompt pull w child pulls rest) :
    ∃ need used v, w.advance Operator.hasNext child window.range = (.ok need, v) ∧
      v = { w with aggregators := v.aggregators, cached := v.cached } ∧
      v.Stands job (past ++ used) (v.kept ++ rest) ∧
      (need = .nothing → job.Enough window.range (past ++ used)) ∧
      (need = .input → v.cached = none ∧ w.inputEnded = false) := by
  obtain ⟨done, used, v, fed, frame, further, enough, nothing⟩ := feedCached_spec stands active
  rw [advance, fed]
  cases done with
  | true => exact ⟨.nothing, used, v, rfl, frame, further, fun _ => enough rfl, nofun⟩
  | false =>
    rw [nothing rfl] at further
    have empty : Stands job { v with cached := none } (past ++ used) rest := further.keep nofun
    have same : v.inputEnded = w.inputEnded := by rw [frame]
    have framed : ({ v with cached := none } : WindowStage) =
        { w with aggregators := v.aggregators, cached := none } := by rw [frame]
    by_cases ended : w.inputEnded = true
    · refine ⟨.nothing, used, { v with cached := none }, by simp [same, ended], framed, empty,
        fun _ => ?_, nofun⟩
      rw [feeds.ended ended] at empty
      exact empty.enough
    · have going : w.inputEnded = false := by simpa using ended
      obtain ⟨more, told, last⟩ := (feeds.tells going).more
      cases more with
      | true =>
        exact ⟨.input, used, { v with cached := none }, by simp [same, going, told], framed, empty,
          nofun, fun _ => ⟨rfl, going⟩⟩
      | false =>
        refine ⟨.nothing, used, { v with cached := none }, by simp [same, going, told],
          framed, empty, fun _ => ?_, nofun⟩
        rw [last rfl] at empty
        exact empty.enough

theorem accept_spec {answer : Answer} {after : List Row} (stands : w.Stands job past rest)
    (empty : w.cached = none) (leaves : answer.Leaves job.types rest after) :
    ∃ v, w.accept answer = .ok v ∧
      v = { w with cached := v.cached, inputEnded := v.inputEnded } ∧
      v.Stands job past (v.kept ++ after) ∧
      (answer = .endOfStream → v.inputEnded = true) ∧
      (answer ≠ .endOfStream → v.inputEnded = w.inputEnded) := by
  have nothing : w.kept = [] := by rw [kept, empty]; rfl
  have given := leaves.given
  cases answer with
  | notReady =>
    exact ⟨w, rfl, rfl, by rw [nothing]; exact given ▸ stands, nofun, fun _ => rfl⟩
  | endOfStream =>
    refine ⟨{ w with inputEnded := true }, rfl, rfl, ?_, fun _ => rfl, nofun⟩
    rw [given] at stands
    have same : kept { w with inputEnded := true } = [] := nothing
    rw [same]
    exact { stands with }
  | block block =>
    have rows : rest = block.rows ++ after := given
    have checked : block.checkScanOrder w.scan = .ok () := by
      rw [WindowStage.scan, stands.scan, Block.checkScanOrder_eq_ok_iff]
      exact List.Pairwise.sublist (rows ▸ List.sublist_append_left _ _) stands.ordered
    by_cases none : block.isEmpty = true
    · refine ⟨w, by simp [accept, checked, none], rfl, ?_, nofun, fun _ => rfl⟩
      rw [rows, (Block.isEmpty_iff block).1 none] at stands
      rw [nothing]
      exact stands
    · refine ⟨{ w with cached := some block }, by simp [accept, checked, none], rfl, ?_, nofun,
        fun _ => rfl⟩
      have same : kept { w with cached := some block } = block.rows := rfl
      rw [same, ← rows]
      refine stands.keep fun b member => ?_
      cases member
      exact leaves.typed block rfl

/-- The child was left alone, or it was pulled and its end is nearer. -/
def Paced (w v : WindowStage) (pulls fewer : Nat) : Prop :=
  v.mayPull = w.mayPull ∧ fewer = pulls ∨ w.mayPull = true ∧ v.mayPull = false ∧ fewer < pulls

theorem Paced.trans {u v : WindowStage} {between fewer : Nat} (first : w.Paced u pulls between)
    (later : u.Paced v between fewer) : w.Paced v pulls fewer := by
  rcases first with ⟨same, rfl⟩ | ⟨may, mayNot, less⟩
  · rcases later with ⟨again, rfl⟩ | ⟨may, mayNot, less⟩
    · exact .inl ⟨again.trans same, rfl⟩
    · exact .inr ⟨same.symm.trans may, mayNot, less⟩
  · rcases later with ⟨again, rfl⟩ | ⟨again, _, _⟩
    · exact .inr ⟨may, again.trans mayNot, less⟩
    · exact absurd (mayNot.symm.trans again) nofun

/-- The window is brought to its end, or the child has to be asked before it is
pulled again. A pull brings the child's end nearer. -/
theorem resolve_spec (stands : w.Stands job past (w.kept ++ rest)) (active : w.active = some window)
    (feeds : Feeds job prompt pull w child pulls rest) :
    ∃ done v next past after fewer,
      w.resolve Operator.hasNext pull child window.range = (.ok done, v, next) ∧
      v = { w with
        aggregators := v.aggregators, cached := v.cached, mayPull := v.mayPull,
        inputEnded := v.inputEnded } ∧
      v.Stands job past (v.kept ++ after) ∧ Feeds job prompt pull v next fewer after ∧
      (done = true → job.Enough window.range past) ∧ (done = false → v.mayPull = false) ∧
      w.Paced v pulls fewer := by
  obtain ⟨need, used, v, advanced, frame, further, enough, input⟩ :=
    advance_spec stands active feeds
  have same : v.mayPull = w.mayPull := by rw [frame]
  have goesOn : v.inputEnded = w.inputEnded := by rw [frame]
  have framed : v = { w with
      aggregators := v.aggregators, cached := v.cached, mayPull := v.mayPull,
      inputEnded := v.inputEnded } := by rw [frame]
  have still : Feeds job prompt pull v child pulls rest :=
    ⟨goesOn ▸ feeds.ended, goesOn ▸ same ▸ feeds.poised, goesOn ▸ same ▸ feeds.pulled⟩
  rw [resolve, advanced]
  cases need with
  | nothing =>
    exact ⟨true, v, child, _, rest, pulls, rfl, framed, further, still, fun _ => enough rfl, nofun,
      .inl ⟨same, rfl⟩⟩
  | input =>
    obtain ⟨empty, going⟩ := input rfl
    cases may : w.mayPull with
    | false =>
      refine ⟨false, v, child, _, rest, pulls, by simp [same, may], framed, further, still, nofun,
        fun _ => same.trans may, .inl ⟨same, rfl⟩⟩
    | true =>
      obtain ⟨pulled, poised⟩ := feeds.poised going may
      cases pulls with
      | zero => exact poised.elim
      | succ pulls =>
      obtain ⟨_, answer, next, after, given, leaves, later⟩ := poised child .never
      have kept : v.kept = [] := by rw [WindowStage.kept, empty]; rfl
      rw [kept, List.nil_append] at further
      have before : Stands job { v with mayPull := false } (past ++ used) rest := { further with }
      obtain ⟨u, accepted, frameU, stood, ended, other⟩ := accept_spec before empty leaves
      have mayNot : u.mayPull = false := by rw [frameU]
      have activeU : u.active = some window := by rw [frameU, frame]; exact active
      have feedsU : Feeds job prompt pull u next pulls after := by
        by_cases last : answer = .endOfStream
        · refine ⟨fun _ => leaves.ended last, fun running => ?_, fun running => ?_⟩ <;>
            rw [ended last] at running <;> contradiction
        · exact ⟨fun none => absurd (goesOn.symm.trans ((other last).symm.trans none))
            (by simp [going]), fun _ may => absurd may (by simp [mayNot]), fun _ _ => later last⟩
      obtain ⟨need, used', v', advanced', frame', further', enough', _⟩ :=
        advance_spec stood activeU feedsU
      have mayNot' : v'.mayPull = false := by rw [frame']; exact mayNot
      have goesOn' : v'.inputEnded = u.inputEnded := by rw [frame']
      refine ⟨need = .nothing, v', next, _, after, pulls, ?_, ?_, further', ?_, ?_,
        fun _ => mayNot', .inr ⟨may, mayNot', Nat.lt_succ_self pulls⟩⟩
      · simp [same, may, pulled, given, accepted, advanced']
      · rw [frame', frameU, frame]
      · exact ⟨goesOn' ▸ feedsU.ended, fun _ may => absurd may (by simp [mayNot']),
          fun running _ => feedsU.pulled (goesOn' ▸ running) mayNot⟩
      · exact fun done => enough' (by simpa using done)

/-- Windows that have no row yet, as they will be met. -/
def todo (w : WindowStage) : List Window := w.active.toList ++ w.cursor.left

theorem windowsLeft_eq (w : WindowStage) : w.windowsLeft = w.todo.length := by
  rw [windowsLeft, todo, Cursor.remaining_eq, List.length_append]
  cases w.active <;> simp [Nat.add_comm]

theorem hasNext_eq (w : WindowStage) (running : w.closed = false) :
    w.hasNext = !w.todo.isEmpty := by
  rw [hasNext, running, Cursor.hasNext_eq, todo]
  cases w.active <;> simp

theorem enterWindow_spec (stands : w.Stands job past left) :
    match w.todo with
    | [] => w.enterWindow = none
    | window :: coming => ∃ v, w.enterWindow = some (window, v) ∧
        v = { w with cursor := v.cursor, aggregators := v.aggregators, active := some window } ∧
        v.Stands job past left ∧ v.cursor.left = coming := by
  rw [enterWindow, todo]
  cases active : w.active with
  | some window =>
    exact ⟨w, rfl, by rw [← active], stands, rfl⟩
  | none =>
    have next := w.cursor.next?_spec
    simp only [Option.toList_none, List.nil_append]
    cases windows : w.cursor.left with
    | nil =>
      rw [windows] at next
      simp only at next ⊢
      rw [next]
      rfl
    | cons window coming =>
      rw [windows] at next
      obtain ⟨cursor, met, left, scan⟩ := next
      simp only [met]
      have chain := stands.chain
      rw [windows] at chain
      have ahead := stands.ahead
      rw [windows] at ahead
      refine ⟨_, rfl, rfl, ?_, left⟩
      exact {
        rows := stands.rows
        scan := scan.trans stands.scan
        chain := by rw [left]; exact chain.of_cons
        ahead := fun x member => ahead x (List.mem_cons_of_mem _ (left ▸ member))
        idle := nofun
        busy := by
          intro other same
          obtain rfl : window = other := Option.some.inj same
          refine ⟨?_, fun x member => List.rel_of_pairwise_cons chain (left ▸ member)⟩
          rw [stands.idle active, Job.aggregated_nothing]
          exact fun r member => Row.within_of_ahead (ahead window List.mem_cons_self r member)
        types := stands.types }

theorem Stands.leave (stands : w.Stands job past left) (active : w.active = some window)
    (buffer : RowBuffer) : Stands job { w with active := none, buffer := buffer } past left where
  rows := stands.rows
  scan := stands.scan
  chain := stands.chain
  ahead := stands.ahead
  idle _ range := by
    change enterAll w.aggregators range = _
    rw [(stands.busy window active).1, Job.enterAll_aggregated]
  busy := nofun
  types := stands.types

/-- What closing windows comes to: these are closed, and a row of each is there. It has
stopped where no window is left, where there are rows to give, or where the child has been
pulled. -/
structure Ran (job : Job) (prompt : Bool) (pull : σ → Attempt σ Answer) (w : WindowStage)
    (pulls : Nat) (emitted : List Row) (v : WindowStage) (next : σ) (closed : List Window)
    (fewer : Nat) (after : List Row) : Prop where
  stands : ∃ past, v.Stands job past (v.kept ++ after)
  feeds : Feeds job prompt pull v next fewer after
  running : v.closed = w.closed
  todo : w.todo = closed ++ v.todo
  holds : v.buffer.Holds (outputSchema job.fresh) (emitted ++ closed.map job.row)
  paced : w.Paced v pulls fewer
  stops : v.todo = [] ∨ emitted ++ closed.map job.row ≠ [] ∨ v.mayPull = false

section
variable {emitted : List Row} {v : WindowStage} {next : σ}

theorem Ran.idle (stands : w.Stands job past (w.kept ++ rest))
    (feeds : Feeds job prompt pull w child pulls rest)
    (holds : w.buffer.Holds (outputSchema job.fresh) emitted) (stops : w.todo = [] ∨ emitted ≠ []) :
    Ran job prompt pull w pulls emitted w child [] pulls rest where
  stands := ⟨past, stands⟩
  feeds := feeds
  running := rfl
  todo := rfl
  holds := by simpa using holds
  paced := .inl ⟨rfl, rfl⟩
  stops := stops.imp_right fun some => .inl (by simpa using some)

/-- A window is closed before the others. -/
theorem Ran.cons {u : WindowStage} {closed : List Window} {between fewer : Nat} {after : List Row}
    (ran : Ran job prompt pull u between (emitted ++ [job.row window]) v next closed fewer after)
    (running : u.closed = w.closed) (todo : w.todo = window :: u.todo)
    (paced : w.Paced u pulls between) :
    Ran job prompt pull w pulls emitted v next (window :: closed) fewer after where
  stands := ran.stands
  feeds := ran.feeds
  running := ran.running.trans running
  todo := by rw [todo, ran.todo, List.cons_append]
  holds := by simpa using ran.holds
  paced := paced.trans ran.paced
  stops := .inr (.inl (by simp))

end

theorem closeWindows_spec {emitted : List Row} {windows : Nat} (enough : windows = w.todo.length)
    (stands : w.Stands job past (w.kept ++ rest))
    (feeds : Feeds job prompt pull w child pulls rest)
    (holds : w.buffer.Holds (outputSchema job.fresh) emitted) :
    ∃ v next closed fewer after,
      w.closeWindows Operator.hasNext pull windows child = (.ok (), v, next) ∧
      Ran job prompt pull w pulls emitted v next closed fewer after := by
  induction windows generalizing w child past rest pulls emitted with
  | zero =>
    have none : w.todo = [] := List.length_eq_zero_iff.1 enough.symm
    exact ⟨w, child, [], pulls, rest, rfl, .idle stands feeds holds (.inl none)⟩
  | succ windows ih =>
    rw [closeWindows]
    by_cases full : w.buffer.isFull = true
    · refine ⟨w, child, [], pulls, rest, by rw [if_pos full], .idle stands feeds holds (.inr ?_)⟩
      rintro rfl
      exact absurd full (by simp [holds.not_full])
    rw [if_neg full]
    have entering := enterWindow_spec stands
    cases windowsLeft : w.todo with
    | nil => rw [windowsLeft] at enough; contradiction
    | cons window coming =>
    rw [windowsLeft] at entering enough
    obtain ⟨u, entered, frame, stood, next⟩ := entering
    have active : u.active = some window := by rw [frame]
    have kept : u.kept = w.kept := by rw [WindowStage.kept, frame]; rfl
    have mayPull : u.mayPull = w.mayPull := by rw [frame]
    have goesOn : u.inputEnded = w.inputEnded := by rw [frame]
    have fed : Feeds job prompt pull u child pulls rest :=
      ⟨goesOn ▸ feeds.ended, goesOn ▸ mayPull ▸ feeds.poised, goesOn ▸ mayPull ▸ feeds.pulled⟩
    obtain ⟨done, v, after, past', rest', fewer, resolved, frameV, further, fedV, all, waits,
      pace⟩ := resolve_spec (kept ▸ stood) active fed
    have paced : w.Paced v pulls fewer := by
      rw [Paced, mayPull] at pace
      exact pace
    have buffer : v.buffer = w.buffer := by rw [frameV, frame]
    have running : v.closed = w.closed := by rw [frameV, frame]
    have activeV : v.active = some window := by rw [frameV]; exact active
    have left : v.cursor.left = coming := by rw [frameV]; exact next
    simp only [entered, resolved]
    cases done with
    | false =>
      have still : v.todo = window :: coming := by
        rw [todo, activeV, left]
        rfl
      refine ⟨v, after, [], fewer, rest', rfl, ⟨past', further⟩, fedV, running, ?_, ?_, paced,
        .inr (.inr (waits rfl))⟩
      · rw [windowsLeft, still, List.nil_append]
      · simpa [buffer] using holds
    | true =>
      have row : outputRow v.aggregators = (job.row window).values := by
        rw [(further.busy window activeV).1, all rfl]
        rfl
      obtain ⟨filled, appended, held⟩ := (buffer ▸ holds).append window.outputTime
        (job.row_types window)
      let x : WindowStage := { v with active := none, buffer := filled }
      have coming : x.todo = coming := left
      obtain ⟨last, next, closed, fewest, rest'', closing, ran⟩ := ih
        (by rw [coming]; simpa using enough) (further.leave activeV filled)
        ⟨fedV.ended, fedV.poised, fedV.pulled⟩ held
      simp only [row, appended]
      exact ⟨last, next, window :: closed, fewest, rest'', closing,
        ran.cons running (by rw [windowsLeft, coming]) paced⟩

structure Rests (job : Job) (prompt : Bool) (w : WindowStage) (child : σ) (pulls : Nat)
    (rest : List Row) : Prop where
  stands : ∃ past, w.Stands job past (w.kept ++ rest)
  running : w.closed = false
  holds : ∃ emitted, w.buffer.Holds (outputSchema job.fresh) emitted
  ended : w.inputEnded = true → rest = []
  yields : w.inputEnded = false → Yields job.types prompt pulls rest child

/-- A call gives the rows of the windows that it closes. If it gives none and
this is not the end, it has brought the child's end nearer. -/
theorem next_spec (pull : σ → Attempt σ Answer) (rests : Rests job prompt w child pulls rest)
    (poised : w.inputEnded = false → Poised job.types prompt pulls rest child)
    (pulled : pull child = Operator.next child) :
    ∃ answer v next fewer after,
      w.next Operator.hasNext pull child = (.ok answer, v, next) ∧
      Rests job prompt v next fewer after ∧
      answer.Leaves (outputSchema job.fresh).types (w.todo.map job.row) (v.todo.map job.row) ∧
      (answer ≠ .endOfStream → fewer + v.todo.length < pulls + w.todo.length) := by
  obtain ⟨past, stands⟩ := rests.stands
  obtain ⟨emitted, holds⟩ := rests.holds
  let u : WindowStage := { w with buffer := w.buffer.clear, mayPull := true }
  have stood : u.Stands job past (u.kept ++ rest) := { stands with }
  have feeds : Feeds job prompt pull u child pulls rest :=
    ⟨rests.ended, fun going _ => ⟨pulled, poised going⟩, nofun⟩
  obtain ⟨v, next, closed, fewer, after, closing, ran⟩ :=
    closeWindows_spec u.windowsLeft_eq stood feeds holds.clear
  obtain ⟨past', further⟩ := ran.stands
  have fed := ran.feeds
  have running : v.closed = false := ran.running.trans rests.running
  have held := ran.holds
  have stop := ran.stops
  rw [List.nil_append] at held stop
  have start : w.next Operator.hasNext pull child = (v.answer.1, v.answer.2, next) := by
    rw [WindowStage.next, if_neg (by simp [rests.running])]
    simp only
    rw [show WindowStage.closeWindows Operator.hasNext pull _ u child = _ from closing]
  have split : w.todo = closed ++ v.todo := ran.todo
  have yields : v.inputEnded = false → Yields job.types prompt fewer after next := by
    intro going
    cases may : v.mayPull with
    | true => exact (fed.poised going may).2.yields
    | false => exact fed.pulled going may
  have rest : Rests job prompt v next fewer after :=
    ⟨⟨past', further⟩, running, ⟨_, held⟩, fed.ended, yields⟩
  have last : v.hasNext = false ↔ v.todo.map job.row = [] := by
    rw [hasNext_eq v running, Bool.not_eq_false', List.isEmpty_iff, List.map_eq_nil_iff]
  obtain ⟨answer, buffer, answered, cleared, leaves, some⟩ :=
    held.answer outputFields_nullable (split ▸ List.map_append) last
  refine ⟨answer, { v with buffer := buffer }, next, fewer, after, ?_,
    { rest with stands := ⟨past', { further with }⟩, holds := ⟨[], cleared⟩ }, leaves,
      fun going => ?_⟩
  · rw [start, answer_eq, answered]
    rfl
  · change fewer + v.todo.length < pulls + w.todo.length
    rw [split, List.length_append]
    rcases ran.paced with ⟨may, rfl⟩ | ⟨_, _, nearer⟩
    · -- The child was left alone, so a window is closed.
      have some_ : closed ≠ [] := by
        rintro rfl
        rcases stop with none | given | mayNot
        · exact absurd none (by simpa using some going)
        · exact absurd rfl given
        · exact absurd (mayNot.symm.trans may) nofun
      have := List.length_pos_iff.2 some_
      omega
    · omega

section
variable {child : Tree σ}

theorem Rests.tells (rests : Rests job prompt w child pulls rest) :
    Tells prompt (w.todo.map job.row) (Tree.window w child) where
  more := by
    refine ⟨w.hasNext, rfl, fun last => ?_⟩
    rw [hasNext_eq w rests.running, Bool.not_eq_false', List.isEmpty_iff] at last
    rw [last]
    rfl
  ready ready := by
    change (Tree.readiness (.window w child)).1 = .ready
    rw [Tree.readiness]
    cases ended : w.inputEnded with
    | true => simp [asksChild, ended]
    | false =>
      have asked : (Tree.readiness child).1 = .ready := (rests.yields ended).1.ready ready
      simp [asksChild, rests.running, ended, asked, Readiness.under]

/-- A stage asks its child whenever it is asked, as long as the child goes on. -/
theorem readiness_window (running : w.closed = false) :
    (Operator.readiness (Tree.window w child)).2 =
      .window w (if w.inputEnded then child else (Operator.readiness child).2) := by
  change (Tree.readiness (.window w child)).2 = _
  rw [Tree.readiness]
  cases ended : w.inputEnded with
  | true => simp [asksChild, ended]
  | false => simp only [asksChild, running, ended]; rfl

theorem of_asked_window {tree : Tree σ} (running : w.closed = false)
    (asked : Asked (.window w child) tree) :
    ∃ c, tree = .window w c ∧ (w.inputEnded = false → Asked child c) := by
  induction asked with
  | never => exact ⟨child, rfl, fun _ => .never⟩
  | again _ ih =>
    obtain ⟨c, rfl, same⟩ := ih
    refine ⟨_, readiness_window running, fun going => ?_⟩
    rw [going]
    exact (same going).again

/-- A window stage over a child that yields the rows of the job yields the rows
of its windows. -/
theorem Rests.poised {calls : Nat} (rests : Rests job prompt w child pulls rest)
    (poised : w.inputEnded = false → Poised job.types prompt pulls rest child)
    (bound : pulls + w.todo.length < calls) :
    Poised (outputSchema job.fresh).types prompt calls (w.todo.map job.row)
      (Tree.window w child) := by
  induction calls generalizing w child pulls rest with
  | zero => omega
  | succ calls ih =>
    intro tree asked
    obtain ⟨c, rfl, same⟩ := of_asked_window rests.running asked
    have stillPoised : w.inputEnded = false → Poised job.types prompt pulls rest c :=
      fun going => (poised going).asked (same going)
    have still : Rests job prompt w c pulls rest :=
      { rests with yields := fun going => (stillPoised going).yields }
    obtain ⟨answer, v, next, fewer, after, called, later, leaves, nearer⟩ :=
      next_spec (fun _ => Operator.next c) still stillPoised rfl
    refine ⟨still.tells, answer, .window v next, v.todo.map job.row, ?_, leaves, fun going => ?_⟩
    · change Tree.next (.window w c) = _
      rw [Tree.next]
      exact congrArg (fun r : Attempt (WindowStage × Tree σ) Answer =>
        (r.1, Tree.window r.2.1 r.2.2)) called
    · refine ⟨later.tells, ?_⟩
      rw [readiness_window later.running]
      have less := nearer going
      cases ended : v.inputEnded with
      | true =>
        exact ih later (fun running => absurd (ended.symm.trans running) nofun) (by omega)
      | false =>
        have asked := (later.yields ended).2
        exact ih { later with yields := fun _ => asked.yields } (fun _ => asked) (by omega)

theorem Rests.yields_window (rests : Rests job prompt w child pulls rest) :
    Yields (outputSchema job.fresh).types prompt (pulls + w.todo.length + 1) (w.todo.map job.row)
      (Tree.window w child) := by
  refine ⟨rests.tells, ?_⟩
  rw [readiness_window rests.running]
  cases ended : w.inputEnded with
  | true =>
    exact rests.poised (fun running => absurd (ended.symm.trans running) nofun) (Nat.lt_succ_self _)
  | false =>
    have asked := (rests.yields ended).2
    exact Rests.poised { rests with yields := fun _ => asked.yields } (fun _ => asked)
      (Nat.lt_succ_self _)

end
end WindowStage
end WindowFold
