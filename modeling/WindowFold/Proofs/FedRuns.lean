import WindowFold.Proofs.Sessions
import WindowFold.Proofs.Supply

/-! A driver over a window stage over one source that is replayed or fed. Whatever it has
to wait for and however often a wait is given up, no turn fails, and the rows that it
has given and those that are owed are always the same rows. -/
namespace WindowFold

namespace Source
variable (s : Source)

theorem isFed_readiness : s.readiness.2.isFed = s.isFed := by cases s <;> rfl

theorem isFed_next : s.next.2.isFed = s.isFed := by cases s <;> rfl

theorem isFed_poll (ticket : Ticket) : (s.poll ticket).2.isFed = s.isFed := by cases s <;> rfl

theorem isFed_release (ticket : Ticket) : (Operator.release ticket s).isFed = s.isFed := by
  cases s <;> rfl

end Source

/-- The state of a driver between two turns. -/
structure Session.Supplied (types : List ScalarType) (scan : Scan) (fresh : List Aggregator)
    (limits : Limits) (channel : String) (unsent : List Block) (rest : List Row) (s : Session)
    (w : WindowStage) (source : Source) (kept : Option Block) (blocks : List Block) : Prop where
  root : s.root = .window w (.source source)
  paused : w.Paused False types scan fresh limits kept blocks
  bears : source.Bears channel unsent blocks
  owes : w.owed fresh kept blocks = .ok rest
  asked : s.awaited ≠ none → w.inputEnded = false → source.isAwaiting = false
  ticket : ∀ t ∈ s.awaited, t.path = [0]

section
variable {types : List ScalarType} {scan : Scan} {fresh : List Aggregator} {limits : Limits}
  {channel : String} {unsent blocks : List Block} {rest : List Row} {w : WindowStage}
  {source : Source} {kept : Option Block}

/-- What the stage has of the source in a call, and what is left of it. -/
theorem Source.Bears.hands (bears : source.Bears channel unsent blocks)
    (paused : w.Paused False types scan fresh limits kept blocks)
    (asked : w.inputEnded = false → source.isAwaiting = false) :
    ∃ after, Hands False scan fresh Operator.hasNext (fun _ => Operator.next (Tree.source source))
        w.anew (Tree.source source) blocks after ∧
      ∀ v c now, Moved Operator.hasNext (fun _ => Operator.next (Tree.source source)) w.anew
          (Tree.source source) blocks after v c now →
        ∃ t : Source, c = .source t ∧ t.Bears channel unsent now ∧ t.isFed = source.isFed ∧
          (source.isFed = false → now.length ≤ blocks.length ∧
            (v.mayPull = false → now.length < blocks.length)) := by
  by_cases pulls : w.inputEnded = false ∧ Operator.hasNext source = .ok true
  · obtain ⟨going, more⟩ := pulls
    obtain ⟨after, deal, further, shorter⟩ := bears.next (asked going) more
    refine ⟨after, ⟨paused.ended, fun _ => bears.told, fun _ _ _ => ⟨deal, further.told⟩⟩, ?_⟩
    intro v c now moved
    cases moved with
    | stays may => exact ⟨source, rfl, bears, rfl, fun _ => ⟨Nat.le_refl _, fun spent =>
        absurd (spent.symm.trans may) nofun⟩⟩
    | pulled => exact ⟨source.next.2, rfl, further, source.isFed_next, fun unfed =>
        ⟨Nat.le_of_lt (shorter unfed), fun _ => shorter unfed⟩⟩
  · refine ⟨[], ⟨paused.ended, fun _ => bears.told, fun going _ more => absurd ⟨going, more⟩ pulls⟩,
      ?_⟩
    intro v c now moved
    cases moved with
    | stays may => exact ⟨source, rfl, bears, rfl, fun _ => ⟨Nat.le_refl _, fun spent =>
        absurd (spent.symm.trans may) nofun⟩⟩
    | pulled _ going more => exact absurd ⟨going, more⟩ pulls

/-- A pull of the stage gives the next of the rows that are owed. -/
theorem WindowStage.pull_source (prepared : Prepared types scan fresh)
    (paused : w.Paused False types scan fresh limits kept blocks)
    (bears : source.Bears channel unsent blocks) (owes : w.owed fresh kept blocks = .ok rest)
    (asked : w.inputEnded = false → source.isAwaiting = false) :
    ∃ answer v t left now after,
      Operator.next (Tree.window w (.source source)) = (.ok answer, .window v (.source t)) ∧
      v.Paused False types scan fresh limits left now ∧ t.Bears channel unsent now ∧
      v.owed fresh left now = .ok after ∧ rest = answer.rows ++ after ∧
      (answer = .endOfStream → v.todo = []) ∧ t.isFed = source.isFed ∧
      (source.isFed = false → answer ≠ .endOfStream →
        v.todo.length + now.length < w.todo.length + blocks.length) := by
  obtain ⟨after, hands, further⟩ := bears.hands paused asked
  have gives := next_gives prepared paused hands
  rw [Tree.next_window]
  rcases called : w.next Operator.hasNext (fun _ => Operator.next (Tree.source source))
    (Tree.source source) with ⟨outcome, v, c⟩
  rw [called] at gives
  cases gives with
  | failed e _ _ fails =>
    rw [owes] at fails
    contradiction
  | refused e _ _ _ _ _ may => exact may.elim
  | answers answer _ _ left now makes paused last goesOn =>
    obtain ⟨t, rfl, bears, fed, shorter⟩ := further v c now makes.moved
    have owed : w.owed fresh kept blocks = _ := makes.owes
    obtain ⟨rest, later, same⟩ := rest_of_owes (owes ▸ owed)
    refine ⟨answer, v, t, left, now, rest, rfl, paused, bears, later, same, last, fed,
      fun unfed going => ?_⟩
    have todo := congrArg List.length makes.todo
    simp only [List.length_map, List.length_append, todo_anew] at todo
    obtain ⟨most, less⟩ := shorter unfed
    rcases goesOn going with some | spent
    · have := List.length_pos_iff.2 some
      omega
    · have := less spent
      omega

end

/-- The block that a turn gives, if it gives one. -/
def Turn.blocks : Turn → List Block
  | .block b => [b]
  | _ => []

namespace Session

/-- The session that a turn leaves. -/
def left (turned : Turn × Driver (Tree Source)) : Session :=
  match turned.1 with
  | .blocked ticket => ⟨turned.2, some ticket⟩
  | _ => ⟨turned.2, none⟩

theorem step_turn (s : Session) : s.step .turn = left (s.driver.turn s.awaited) := by
  rw [step]
  rcases s.driver.turn s.awaited with ⟨_ | _ | _ | _ | _, driver⟩ <;> rfl

/-- A turn has not failed, and of the rows that were owed it has given the first. A source
that is not fed is brought nearer to its end. -/
inductive Turned (types : List ScalarType) (scan : Scan) (fresh : List Aggregator) (limits : Limits)
    (channel : String) (unsent : List Block) (rest : List Row) (fed : Bool) (effort : Nat)
    (turned : Turn × Driver (Tree Source)) : Prop where
  | intro (w : WindowStage) (source : Source) (kept : Option Block) (blocks : List Block)
      (after : List Row)
      (supplied : Supplied types scan fresh limits channel unsent after (left turned) w source kept
        blocks)
      (rows : rest = turned.1.blocks.flatMap Block.rows ++ after)
      (well : ∀ failure, turned.1 ≠ .failed failure) (last : turned.1 = .ended → after = [])
      (waits : ∀ ticket, turned.1 = .blocked ticket → fed = true) (same : source.isFed = fed)
      (less : fed = false → turned.1 ≠ .ended → w.todo.length + blocks.length < effort) :
      Turned types scan fresh limits channel unsent rest fed effort turned

end Session

section
variable {types : List ScalarType} {scan : Scan} {fresh : List Aggregator} {limits : Limits}
  {channel : String} {unsent blocks : List Block} {rest : List Row} {w : WindowStage}
  {source : Source} {kept : Option Block} {d : Driver (Tree Source)} {s : Session}

open WindowStage Session

/-- A session that waits for no receive stands where its stage does. -/
theorem Session.Supplied.of_idle (root : d.root = .window w (.source source))
    (paused : w.Paused False types scan fresh limits kept blocks)
    (bears : source.Bears channel unsent blocks) (owes : w.owed fresh kept blocks = .ok rest) :
    Supplied types scan fresh limits channel unsent rest ⟨d, none⟩ w source kept blocks :=
  ⟨root, paused, bears, owes, fun waits => absurd rfl waits, by simp⟩

theorem Driver.pull_turned (prepared : Prepared types scan fresh)
    (root : d.root = .window w (.source source))
    (paused : w.Paused False types scan fresh limits kept blocks)
    (bears : source.Bears channel unsent blocks) (owes : w.owed fresh kept blocks = .ok rest)
    (asked : w.inputEnded = false → source.isAwaiting = false) :
    Turned types scan fresh limits channel unsent rest source.isFed
      (w.todo.length + blocks.length) d.pull := by
  obtain ⟨answer, v, t, left, now, after, pulled, paused, bears, owed, rows, last, same, less⟩ :=
    pull_source prepared paused bears owes asked
  rw [← root] at pulled
  have supplied : ∀ e : Driver (Tree Source), e.root = .window v (.source t) →
      Supplied types scan fresh limits channel unsent after ⟨e, none⟩ v t left now := fun e root =>
    .of_idle root paused bears owed
  rw [Driver.pull, pulled]
  cases answer with
  | block b =>
    exact .intro v t left now after (supplied _ rfl)
      (by simpa [Turn.blocks, Answer.rows] using rows)
      (by simp) (by simp) (by simp) same fun unfed _ => less unfed (by simp)
  | notReady =>
    exact .intro v t left now after (supplied _ rfl) rows (by simp) (by simp) (by simp) same
      fun unfed _ => less unfed (by simp)
  | endOfStream =>
    refine .intro v t left now after (supplied _ rfl) rows (by simp) (fun _ => ?_) (by simp) same
      fun _ going => absurd rfl going
    rw [owed_nil (last rfl)] at owed
    exact (Except.ok.inj owed).symm

/-- A receive below the stage is polled where it is. -/
theorem Tree.poll_source (w : WindowStage) (source : Source) {ticket : Ticket}
    (path : ticket.path = [0]) : (Tree.window w (.source source)).poll ticket =
      ((source.poll ticket).1, .window w (.source (source.poll ticket).2)) := by
  rw [Tree.poll, path]
  rfl

theorem Tree.release_source (w : WindowStage) (source : Source) {ticket : Ticket}
    (path : ticket.path = [0]) : (Tree.window w (.source source)).release ticket =
      .window w (.source (Operator.release ticket source)) := by
  rw [Tree.release, path]
  rfl

theorem Driver.await_turned (prepared : Prepared types scan fresh)
    (root : d.root = .window w (.source source))
    (paused : w.Paused False types scan fresh limits kept blocks)
    (bears : source.Bears channel unsent blocks) (owes : w.owed fresh kept blocks = .ok rest)
    (asked : w.inputEnded = false → source.isAwaiting = false) {ticket : Ticket}
    (path : ticket.path = [0]) :
    Turned types scan fresh limits channel unsent rest source.isFed
      (w.todo.length + blocks.length) (d.await ticket) := by
  have polled := bears.poll ticket
  have still := source.isAwaiting_poll ticket
  have fed := source.isFed_poll ticket
  rw [Driver.await_eq, root, Tree.poll_source w source path, Tree.release_source w _ path]
  cases complete : (source.poll ticket).1 with
  | true =>
    have released := polled.release ticket
    have free := (source.poll ticket).2.isAwaiting_release ticket
    rw [← fed, ← (source.poll ticket).2.isFed_release ticket]
    exact Driver.pull_turned (d := { d with root := _ }) prepared rfl paused released owes
      fun going =>
      free.trans (still.trans (asked going))
  | false =>
    have isFed : source.isFed = true := by
      cases bears with
      | replay => contradiction
      | exchange => rfl
    refine .intro w _ kept blocks rest ⟨rfl, paused, polled, owes, fun _ going =>
      still.trans (asked going), ?_⟩ rfl (fun _ => nofun) nofun (fun _ _ => isFed) fed
      fun unfed => absurd (isFed.symm.trans unfed) nofun
    rintro _ ⟨⟩
    exact path

theorem Tree.readiness_source (running : w.closed = false) (source : Source) :
    Operator.readiness (Tree.window w (.source source)) =
      if w.inputEnded then (.ready, .window w (.source source))
      else (source.readiness.1.under 0, .window w (.source source.readiness.2)) := by
  change Tree.readiness _ = _
  rw [Tree.readiness, asksChild, running]
  cases w.inputEnded <;> rfl

theorem Session.Supplied.turn (prepared : Prepared types scan fresh)
    (supplied : Supplied types scan fresh limits channel unsent rest s w source kept blocks) :
    Turned types scan fresh limits channel unsent rest source.isFed
      (w.todo.length + blocks.length) (s.driver.turn s.awaited) := by
  have root : s.driver.root = .window w (.source source) := supplied.root
  cases awaited : s.awaited with
  | some ticket =>
    have path := supplied.ticket ticket awaited
    exact Driver.await_turned prepared root supplied.paused supplied.bears supplied.owes
      (supplied.asked (by simp [awaited])) path
  | none =>
    have told : Operator.hasNext s.driver.root = .ok w.hasNext := by
      rw [root]
      rfl
    rw [Driver.turn]
    dsimp only
    rw [told]
    cases more : w.hasNext with
    | false =>
      rw [hasNext_eq w supplied.paused.running, Bool.not_eq_false', List.isEmpty_iff] at more
      have owes := supplied.owes
      rw [owed_nil more] at owes
      exact .intro w source kept blocks rest
        (.of_idle root supplied.paused supplied.bears supplied.owes) rfl (by simp)
        (fun _ => (Except.ok.inj owes).symm) (by simp) rfl fun _ going => absurd rfl going
    | true =>
      rw [root, Tree.readiness_source supplied.paused.running]
      have asked := source.isAwaiting_readiness
      have ready := supplied.bears.readiness
      have fed := source.isFed_readiness
      cases ended : w.inputEnded with
      | true =>
        exact Driver.pull_turned (d := { s.driver with root := _ }) prepared rfl supplied.paused
          supplied.bears supplied.owes fun going => absurd (ended.symm.trans going) (by simp)
      | false =>
        dsimp only
        rw [← fed]
        cases waits : source.readiness.1 with
        | ready =>
          exact Driver.pull_turned (d := { s.driver with root := _ }) prepared rfl supplied.paused
            ready supplied.owes fun _ => asked
        | waiting ticket =>
          have path := supplied.bears.path waits
          exact Driver.await_turned (d := { s.driver with root := _ }) prepared rfl supplied.paused
            ready supplied.owes (fun _ => asked) (by rw [Ticket.under, path])

namespace Session

/-- A wait that is given up loses nothing. -/
theorem Supplied.giveUp
    (supplied : Supplied types scan fresh limits channel unsent rest s w source kept blocks) :
    ∃ t, Supplied types scan fresh limits channel unsent rest (s.step .giveUp) w t kept blocks ∧
      t.isFed = source.isFed := by
  rw [step]
  cases awaited : s.awaited with
  | none => exact ⟨source, supplied, rfl⟩
  | some ticket =>
    have path := supplied.ticket ticket awaited
    refine ⟨Operator.release ticket source, .of_idle ?_ supplied.paused
      (supplied.bears.release ticket) supplied.owes, source.isFed_release ticket⟩
    change s.root.release ticket = _
    rw [supplied.root, Tree.release_source w source path]

end Session

theorem Tree.exchangePath?_source (w : WindowStage) (e : Exchange) :
    (Tree.window w (.source (.exchange e))).exchangePath? e.name = some [0] := by
  simp [exchangePath?, sources]

theorem Tree.send_source (w : WindowStage) (e : Exchange) (block : Block) :
    (Tree.window w (.source (.exchange e))).send e.name block =
      ((e.send block).1, .window w (.source (.exchange (e.send block).2))) := by
  rw [Tree.send, exchangePath?_source]
  rfl

theorem Tree.dropSender_source (w : WindowStage) (e : Exchange) :
    (Tree.window w (.source (.exchange e))).dropSender e.name =
      (e.dropSender.1, .window w (.source (.exchange e.dropSender.2))) := by
  rw [Tree.dropSender, exchangePath?_source]
  rfl

namespace Session
variable {block : Block} {e : Exchange}

/-- A block that is accepted is one of those that the exchange holds now. -/
theorem Supplied.send
    (supplied : Supplied types scan fresh limits channel (block :: unsent) rest s w
      (.exchange e) kept blocks) :
    Supplied types scan fresh limits channel
      (if (s.root.send channel block).1 = .accepted then unsent else block :: unsent) rest
      (s.step (.send channel block)) w (.exchange (e.send block).2) kept blocks := by
  obtain ⟨root, paused, bears, owes, asked, ticket⟩ := supplied
  cases bears with
  | exchange named sound sender =>
  subst named
  obtain ⟨name, still⟩ := e.sender_send block
  obtain ⟨after, held⟩ := sound.send block
  rw [root, Tree.send_source]
  have bears : Source.Bears e.name
      (if (e.send block).1 = .accepted then unsent else block :: unsent)
      (.exchange (e.send block).2) (e.holds ++ block :: unsent) := by
    have same : e.holds ++ block :: unsent = (e.send block).2.holds ++
        if (e.send block).1 = .accepted then unsent else block :: unsent := by
      rw [held]
      split <;> simp
    rw [same]
    exact .exchange name after fun gone => absurd (sender (still.symm.trans gone)) nofun
  refine ⟨?_, paused, bears, owes, fun waits going => ?_, ticket⟩
  · change (s.root.send e.name block).2 = _
    rw [root, Tree.send_source]
  · exact (e.awaiting_send block).trans (asked waits going)

theorem Supplied.dropSender (supplied : Supplied types scan fresh limits channel [] rest s w
      (.exchange e) kept blocks) :
    Supplied types scan fresh limits channel [] rest (s.step (.dropSender channel)) w
      (.exchange e.dropSender.2) kept blocks := by
  obtain ⟨root, paused, bears, owes, asked, ticket⟩ := supplied
  cases bears with
  | exchange named sound sender =>
  subst named
  obtain ⟨after, held⟩ := sound.dropSender
  refine ⟨?_, paused, ?_, owes, asked, ticket⟩
  · change (s.root.dropSender e.name).2 = _
    rw [root, Tree.dropSender_source]
  · rw [← held]
    exact .exchange rfl after fun _ => rfl

end Session

/-- Closing a stage over such a source does not fail. -/
theorem Driver.close_source (root : d.root = .window w (.source source))
    (bears : source.Bears channel unsent blocks) : d.close.1 = none := by
  have closed : (Operator.close d.root).1 = .ok () := by
    rw [root]
    change (Tree.close _).1 = _
    rw [Tree.close]
    split
    · rfl
    · cases bears <;> rfl
  rw [close]
  split
  · rfl
  · dsimp only
    rw [closed]

theorem Run.finish_source {r : Run (Tree Source)}
    (root : r.driver.root = .window w (.source source))
    (bears : source.Bears channel unsent blocks) : (r.finish none).1 = .finished r.blocks := by
  simp only [finish, Driver.close_source root bears]

/-- What a poll of a run comes to: the end, with the blocks so far and the rows that were
owed, or a wait. -/
inductive Run.Completes (waits : Prop) (before : List Block) (rest : List Row) :
    RunOutcome → Prop where
  | finished (all more : List Block) (gives : all = before ++ more)
      (rows : rest = more.flatMap Block.rows) : Completes waits before rest (.finished all)
  | pending (may : waits) : Completes waits before rest .pending

theorem Run.Completes.prepend {waits later : Prop} {before between more : List Block}
    {after : List Row} {outcome : RunOutcome} (completes : Completes later between after outcome)
    (grows : between = before ++ more) (rows : rest = more.flatMap Block.rows ++ after)
    (weaker : later → waits) : Completes waits before rest outcome := by
  cases completes with
  | finished all others gives same =>
    refine .finished all (more ++ others) ?_ ?_
    · rw [gives, grows, List.append_assoc]
    · rw [rows, same, List.flatMap_append]
  | pending may => exact .pending (weaker may)

/-- A source that is not fed never has a run wait, given turns enough. -/
theorem Run.pollWithin_completes (prepared : Prepared types scan fresh) (turns : Nat)
    {r : Run (Tree Source)}
    (supplied : Supplied types scan fresh limits channel unsent rest
      ⟨r.driver, r.awaited⟩ w source kept blocks) :
    Completes (source.isFed = true ∨ turns ≤ w.todo.length + blocks.length) r.blocks rest
      (r.pollWithin turns).1 := by
  induction turns generalizing r rest w source kept blocks with
  | zero => exact .pending (.inr (Nat.zero_le _))
  | succ turns ih =>
    have turned := supplied.turn prepared
    rw [pollWithin]
    dsimp only at turned
    rcases taken : r.driver.turn r.awaited with ⟨turn, d⟩
    rw [taken] at turned
    obtain ⟨v, t, left, now, after, supplied, rows, well, last, waits, same, less⟩ := turned
    have sooner : turn ≠ .ended →
        t.isFed = true ∨ turns ≤ v.todo.length + now.length →
          source.isFed = true ∨ turns + 1 ≤ w.todo.length + blocks.length := by
      rintro going (fed | late)
      · exact .inl (same ▸ fed)
      · cases kind : source.isFed with
        | true => exact .inl rfl
        | false =>
          have := less kind going
          exact .inr (by omega)
    cases turn with
    | block b =>
      exact (ih (r := ⟨d, r.blocks ++ [b], none⟩) supplied).prepend rfl rows (sooner (by simp))
    | notReady =>
      exact (ih (r := ⟨d, r.blocks, none⟩) supplied).prepend (List.append_nil _).symm rows
        (sooner (by simp))
    | ended =>
      obtain rfl := last rfl
      have finished := finish_source (r := { r with driver := d }) supplied.root supplied.bears
      dsimp only
      rw [finished]
      exact .finished r.blocks [] (List.append_nil _).symm rows
    | blocked ticket => exact .pending (.inl (waits ticket rfl))
    | failed failure => exact absurd rfl (well failure)

/-- A call for the next block does not fail, and where it tells that there is none no row
was owed. -/
theorem Driver.nextBlockWithin_supplied (prepared : Prepared types scan fresh) (turns : Nat)
    (supplied : Supplied types scan fresh limits channel unsent rest ⟨d, none⟩ w source kept
      blocks) :
    (∀ failure, (d.nextBlockWithin turns).1 ≠ .failed failure) ∧
      ((d.nextBlockWithin turns).1 = .none → rest = []) := by
  induction turns generalizing d rest w source kept blocks with
  | zero => exact ⟨by simp [nextBlockWithin], by simp [nextBlockWithin]⟩
  | succ turns ih =>
    have turned := supplied.turn prepared
    rw [nextBlockWithin]
    dsimp only at turned
    rcases taken : d.turn none with ⟨turn, next⟩
    rw [taken] at turned
    obtain ⟨v, t, left, now, after, supplied, rows, well, last, _, _, _⟩ := turned
    cases turn with
    | block b => exact ⟨by simp, by simp⟩
    | notReady =>
      obtain rfl : rest = after := rows
      exact ih supplied
    | ended => exact ⟨by simp, fun _ => rows.trans (last rfl)⟩
    | blocked ticket => exact ⟨by simp, by simp⟩
    | failed failure => exact absurd rfl (well failure)

end
end WindowFold
