import WindowFold.Proofs.Sessions

/-! A merge whose first child is a channel, driven in rounds: a block is sent to
that channel, and then there is a turn. -/
namespace WindowFold

theorem modify_concat {α : Type} (f : α → α) (l : List α) (last : α) :
    (l ++ [last]).modify l.length f = l ++ [f last] := by
  induction l with
  | nil => rfl
  | cons first rest ih => exact congrArg (first :: ·) ih

namespace Exchange

/-- Open and fed, with nothing at hand and no receive under way. -/
structure Idle (e : Exchange) : Prop where
  running : e.closed = false
  fed : e.hasSender = true
  accepting : e.accepting = true
  room : 0 < e.capacity
  queue : e.queue = []
  buffered : e.buffered = none
  going : e.disconnected = false
  alone : e.pending = none
  complete : ∀ r ∈ e.receives, r.progress = .complete

/-- A block was sent and received. -/
def fetched (e : Exchange) (block : Block) : Exchange :=
  { e with
    buffered := some block
    pending := some e.receives.length
    awaiting := false
    receives := e.receives ++ [⟨.complete, 0⟩] }

variable {e : Exchange}

theorem idle_create (name : String) (schema : Schema) {capacity : Nat} (room : 0 < capacity) :
    (create name schema capacity).Idle where
  running := rfl
  fed := rfl
  accepting := rfl
  room := room
  queue := rfl
  buffered := rfl
  going := rfl
  alone := rfl
  complete := fun _ member => absurd member List.not_mem_nil

theorem Idle.send (idle : e.Idle) (block : Block) :
    (e.send block).2 = { e with queue := [block] } := by
  have room := idle.room
  rw [Exchange.send, if_neg (by simp [idle.fed]), if_neg (by simp [idle.accepting]),
    if_neg (by simp [idle.queue]; omega), idle.queue]
  rfl

/-- Of receives that are complete but the last none keeps the receiving end locked. -/
theorem Idle.not_locked (idle : e.Idle) {f : Exchange} {last : Receive}
    (receives : f.receives = e.receives ++ [last]) :
    f.lockers.any (· ≠ e.receives.length) = false := by
  rw [List.any_eq_false]
  intro number member
  obtain ⟨inside, locks⟩ := List.mem_filter.1 member
  by_contra other
  have other : number ≠ e.receives.length := by simpa using other
  have earlier : number < e.receives.length := by
    rw [receives, List.length_append, List.length_singleton] at inside
    have := List.mem_range.1 inside
    omega
  have complete := idle.complete _ (List.getElem_mem earlier)
  simp [receives, List.getElem?_append_left earlier, List.getElem?_eq_getElem earlier,
    complete] at locks

/-- A check after a send begins a receive; the receive takes the block. -/
theorem Idle.fetch (idle : e.Idle) (block : Block) :
    ∃ asked taken, (e.send block).2.readiness = (.waiting ⟨[], e.receives.length⟩, asked) ∧
      asked.poll e.receives.length = (true, taken) ∧
      taken.release e.receives.length = e.fetched block := by
  let asked : Exchange := { e with
    queue := [block]
    awaiting := false
    receives := e.receives ++ [⟨.begun, 1⟩]
    pending := some e.receives.length }
  let taken : Exchange := { asked with
    queue := []
    buffered := some block
    receives := e.receives ++ [⟨.complete, 1⟩] }
  refine ⟨asked, taken, ?_, ?_, ?_⟩
  · rw [idle.send, readiness, if_neg (by simp [idle.running, idle.buffered, idle.going])]
    simp only [idle.alone, Option.filter_none]
    rfl
  · have under : asked.isUnderWay e.receives.length = true := by
      simp [isUnderWay, asked]
    rw [poll, if_neg (by simp [under]), idle.not_locked (f := asked) rfl]
    simp [asked, taken, mark, changeReceive, modify_concat]
  · simp [taken, asked, release, changeReceive, fetched, idle.queue, modify_concat]

/-- The block that was received is given, and the channel is idle again. -/
theorem Idle.next_fetched (idle : e.Idle) (block : Block) :
    ∃ f : Exchange, (e.fetched block).next = (.ok (.block block), f) ∧ f.Idle ∧
      f.name = e.name := by
  let given : Exchange := { e with
    awaiting := false
    receives := e.receives ++ [⟨.complete, 0⟩] }
  have still : given.Idle := {
    idle with
    complete := by
      intro r member
      rcases List.mem_append.1 member with earlier | last
      · exact idle.complete r earlier
      · rw [List.mem_singleton.1 last] }
  refine ⟨given, ?_, still, rfl⟩
  rw [next, if_neg (by simp [fetched, idle.running]), if_neg (by simp [fetched])]
  simp only [fetched, given, idle.buffered, idle.alone]

/-- A channel that holds nothing has nothing to give, and then waits to be asked. -/
theorem Idle.next (idle : e.Idle) (asked : e.awaiting = false) :
    e.next = (.ok .notReady, { e with awaiting := true }) := by
  rw [Exchange.next, if_neg (by simp [idle.running]), if_neg (by simp [asked])]
  have free : e.lockers = [] := by
    refine List.filter_eq_nil_iff.2 fun number member => ?_
    have inside := List.mem_range.1 member
    have complete := idle.complete _ (List.getElem_mem inside)
    simp [List.getElem?_eq_getElem inside, complete]
  simp [idle.buffered, idle.going, idle.alone, idle.queue, idle.fed, free, answerNotReady]

/-- Pulled once more, it fails. -/
theorem Idle.next_again (idle : e.Idle) :
    { e with awaiting := true }.next.1 =
      .error (.protocolViolation e.name .readinessNotChecked) := by
  rw [Exchange.next, if_neg (by simp [idle.running]), if_pos rfl]

theorem Idle.hasNext (idle : e.Idle) : e.hasNext = true := by
  simp [Exchange.hasNext, idle.running, idle.going]

end Exchange

abbrev Tree.channel (e : Exchange) : Tree Source := .source (.exchange e)

namespace Tree
variable {m : MergeStage} {e : Exchange} {held : Option Block} {mayPull ended : Bool}
  {others : List (Inlet (Tree Source))}

theorem hasNext_channel (idle : e.Idle) : (channel e).hasNext = .ok true :=
  congrArg Except.ok idle.hasNext

theorem hasNext_fetched (idle : e.Idle) (block : Block) :
    (channel (e.fetched block)).hasNext = .ok true := by
  simp [hasNext, Operator.hasNext, Exchange.hasNext, Exchange.fetched, idle.running]

theorem next_channel {answer : Except Failure Answer} {after : Exchange}
    (given : e.next = (answer, after)) : next (channel e) = (answer, channel after) := by
  rw [next]
  exact congrArg (fun r : Attempt Exchange Answer => (r.1, channel r.2)) given

theorem mem_inletsSources {inlets : List (Inlet (Tree Source))}
    (flat : ∀ inlet ∈ inlets, ∃ s, inlet.child = source s) {index : Nat} {p : List Nat × Source}
    (member : p ∈ inletsSources index inlets) : ∃ inlet ∈ inlets, inlet.child = source p.2 := by
  induction inlets generalizing index with
  | nil => simp [inletsSources] at member
  | cons inlet rest ih =>
    rw [inletsSources] at member
    rcases List.mem_append.1 member with first | later
    · obtain ⟨⟨path, s⟩, inside, rfl⟩ := List.mem_map.1 first
      obtain ⟨child, _, _, _⟩ := inlet
      obtain ⟨t, rfl⟩ := flat _ List.mem_cons_self
      simp only [inletSources, sources, List.mem_singleton, Prod.mk.injEq] at inside
      exact ⟨_, List.mem_cons_self, inside.2 ▸ rfl⟩
    · obtain ⟨i, inside, same⟩ := ih (fun i inside => flat i (List.mem_cons_of_mem _ inside)) later
      exact ⟨i, List.mem_cons_of_mem _ inside, same⟩

/-- Children that are channels, all of other names. -/
def Apart (name : String) (inlets : List (Inlet (Tree Source))) : Prop :=
  ∀ inlet ∈ inlets, ∃ e : Exchange, inlet.child = channel e ∧ e.name ≠ name

/-- What is sent to the first channel arrives there. -/
theorem send_first (apart : Apart e.name others) (block : Block) :
    (merge m (⟨channel e, held, mayPull, ended⟩ :: others)).send e.name block =
      ((e.send block).1,
        merge m (⟨channel (e.send block).2, held, mayPull, ended⟩ :: others)) := by
  have path : (merge m (⟨channel e, held, mayPull, ended⟩ :: others)).exchangePath?
      e.name = some [0] := by
    rw [exchangePath?, sources, inletsSources, List.reverse_append, List.find?_append,
      List.find?_eq_none.2]
    · simp [inletSources, sources]
    rintro ⟨path, s⟩ member
    have flat : ∀ inlet ∈ others, ∃ s, inlet.child = source s := fun inlet member =>
      have ⟨f, child, _⟩ := apart inlet member
      ⟨_, child⟩
    obtain ⟨inlet, inside, child⟩ := mem_inletsSources flat (List.mem_reverse.1 member)
    obtain ⟨f, same, other⟩ := apart inlet inside
    rw [same] at child
    cases child
    simpa using other
  simp only [send, path, act, actInlets, actInlet]
  rfl

end Tree

namespace Driver
variable {d : Driver (Tree Source)} {m : MergeStage} {e : Exchange} {held : Option Block}
  {mayPull : Bool} {others : List (Inlet (Tree Source))}

theorem pull_notReady {root : Tree Source} (pulled : d.root.next = (.ok .notReady, root)) :
    d.pull = (.notReady, { d with root := root, notReadyAnswers := d.notReadyAnswers + 1 }) := by
  have pulled : Operator.next d.root = _ := pulled
  simp only [pull, pulled]

theorem pull_failed {e : Failure} (pulled : d.root.next.1 = .error e) :
    d.pull.1 = .failed ⟨e, some .pulling⟩ := by
  have pulled : (Operator.next d.root).1 = _ := pulled
  simp only [pull, pulled]

/-- A turn after a block was sent to the first channel. The check stops there,
and the merge is pulled once the block has come. -/
theorem turn_fetch (more : m.hasNext = true) (idle : e.Idle) (block : Block)
    (root : d.root = .merge m (⟨.channel (e.send block).2, held, mayPull, false⟩ :: others)) :
    d.turn none = pull { d with
      root := .merge m (⟨.channel (e.fetched block), held, mayPull, false⟩ :: others) } := by
  obtain ⟨asked, taken, check, polled, released⟩ := idle.fetch block
  have running : m.closed = false := by
    rw [MergeStage.hasNext, Bool.and_eq_true] at more
    simpa using more.1
  have check : (Tree.channel (e.send block).2).readiness =
      (.waiting ⟨[], e.receives.length⟩, .channel asked) := by
    rw [Tree.readiness]
    exact congrArg (fun r : Readiness × Exchange => (r.1, Tree.channel r.2)) check
  have waits : Operator.readiness d.root = (.waiting ⟨[0], e.receives.length⟩,
      .merge m (⟨.channel asked, held, mayPull, false⟩ :: others)) := by
    change d.root.readiness = _
    rw [root, Tree.readiness, if_neg (by simp [running]), Tree.inletsReadiness]
    simp only [Bool.false_eq_true, if_false, Tree.inletReadiness, check]
    rfl
  have comes : Operator.poll ⟨[0], e.receives.length⟩
      (Tree.merge m (⟨.channel asked, held, mayPull, false⟩ :: others)) =
      (true, .merge m (⟨.channel taken, held, mayPull, false⟩ :: others)) := by
    change Tree.poll _ _ = _
    simp only [Tree.poll, Tree.act, Tree.actInlets, Tree.actInlet]
    exact congrArg (fun r : Bool × Exchange =>
      (r.1, Tree.merge m (⟨.channel r.2, held, mayPull, false⟩ :: others))) polled
  have given : Operator.release ⟨[0], e.receives.length⟩
      (Tree.merge m (⟨.channel taken, held, mayPull, false⟩ :: others)) =
      .merge m (⟨.channel (e.fetched block), held, mayPull, false⟩ :: others) := by
    change Tree.release _ _ = _
    simp only [Tree.release, Tree.act, Tree.actInlets, Tree.actInlet]
    exact congrArg (fun f => Tree.merge m (⟨.channel f, held, mayPull, false⟩ :: others)) released
  have going : Operator.hasNext d.root = .ok true := by
    rw [root]
    exact congrArg Except.ok more
  simp only [turn, going, waits, await, comes, if_true, given]

end Driver

namespace Session

theorem step_notReady {s : Session} {d : Driver (Tree Source)}
    (turned : s.driver.turn s.awaited = (.notReady, d)) : s.step .turn = ⟨d, none⟩ := by
  simp only [step, turned]

section
variable {s : Session} {m : MergeStage} {e : Exchange} {held : Option Block} {mayPull : Bool}
  {others : List (Inlet (Tree Source))} (awaited : s.awaited = none)
  (root : s.root = .merge m (⟨.channel e, held, mayPull, false⟩ :: others))
  (more : m.hasNext = true) (idle : e.Idle) (apart : Tree.Apart e.name others) (block : Block)
include awaited root more idle apart

/-- A block is sent to the first channel, and then there is a turn. -/
theorem turn_sent :
    (s.step (.send e.name block)).driver.turn (s.step (.send e.name block)).awaited =
      Driver.pull { s.driver with
        root := .merge m (⟨.channel (e.fetched block), held, mayPull, false⟩ :: others) } := by
  have sent : (s.step (.send e.name block)).driver.root =
      .merge m (⟨.channel (e.send block).2, held, mayPull, false⟩ :: others) := by
    change (s.root.send e.name block).2 = _
    rw [root, Tree.send_first apart]
  have free : (s.step (.send e.name block)).awaited = none := awaited
  rw [free]
  exact Driver.turn_fetch more idle block sent

theorem quiet_sent {after : Tree Source} (pulled : (Tree.merge m
      (⟨.channel (e.fetched block), held, mayPull, false⟩ :: others)).next =
        (.ok .notReady, after)) :
    ((s.step (.send e.name block)).step .turn).awaited = none ∧
      ((s.step (.send e.name block)).step .turn).root = after := by
  have turned := (turn_sent awaited root more idle apart block).trans (Driver.pull_notReady pulled)
  rw [step_notReady turned]
  exact ⟨rfl, rfl⟩

theorem failed_sent {failure : Failure} (pulled : (Tree.merge m
      (⟨.channel (e.fetched block), held, mayPull, false⟩ :: others)).next.1 = .error failure) :
    s.outcomes [.send e.name block, .turn] = [.failed ⟨failure, some .pulling⟩] := by
  have turned := turn_sent awaited root more idle apart block
  change [(Driver.turn _ _).1] = _
  rw [turned, Driver.pull_failed pulled]

end

section
variable {s : Session} {m : MergeStage}

theorem act_merge {α : Type} (f : Source → α × Source) (inlets : List (Inlet (Tree Source)))
    (path : List Nat) : ∃ after, ((Tree.merge m inlets).act f path).2 = .merge m after := by
  cases path with
  | nil => exact ⟨inlets, by simp [Tree.act]⟩
  | cons index path =>
    rw [Tree.act]
    exact ⟨_, rfl⟩

/-- A merge without windows to come is neither asked nor pulled. -/
theorem careful_of_exhausted (exhausted : m.hasNext = false) (awaited : s.awaited = none)
    (root : ∃ inlets, s.root = .merge m inlets) (events : List Event) : s.Careful events := by
  induction events generalizing s with
  | nil => trivial
  | cons event rest ih =>
    obtain ⟨inlets, root⟩ := root
    have told : s.root.hasNext = .ok false := by
      rw [root]
      exact congrArg Except.ok exhausted
    constructor
    · rintro _ ⟨_, more, _⟩
      rw [told] at more
      contradiction
    cases event with
    | send channel block =>
      refine ih awaited ?_
      change ∃ after, (s.root.send channel block).2 = _
      rw [root, Tree.send]
      split
      · exact ⟨inlets, rfl⟩
      · exact act_merge _ inlets _
    | dropSender channel =>
      refine ih awaited ?_
      change ∃ after, (s.root.dropSender channel).2 = _
      rw [root, Tree.dropSender]
      split
      · exact ⟨inlets, rfl⟩
      · exact act_merge _ inlets _
    | turn =>
      have ended : s.driver.turn s.awaited = (.ended, s.driver) := by
        have told : Operator.hasNext s.driver.root = .ok false := told
        rw [awaited]
        simp only [Driver.turn, told]
      have same : s.step .turn = ⟨s.driver, none⟩ := by
        simp only [step, ended]
      rw [same]
      exact ih rfl ⟨inlets, root⟩
    | giveUp =>
      have same : s.step .giveUp = s := by
        simp only [step, awaited]
      rw [same]
      exact ih awaited ⟨inlets, root⟩

end

end Session
end WindowFold
