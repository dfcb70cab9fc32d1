import Mathlib
import WindowFold.Operator.Exchange

/-! Whatever is done to an exchange, its blocks are handed out once each and in
the order in which they were sent. A block reaches the caller through a receive
or without one, and never while a receive is under way. -/
namespace WindowFold

namespace Exchange
variable {e : Exchange} {number other : Nat}

@[simp] theorem isUnderWay_mark (e : Exchange) (progress : Progress) :
    (e.mark number progress).isUnderWay other = true ↔
      (if number = other then progress ≠ .complete ∧ number < e.receives.length
        else e.isUnderWay other = true) := by
  simp only [isUnderWay, mark, changeReceive, List.getElem?_modify]
  split
  next same =>
    subst same
    by_cases inside : number < e.receives.length <;> simp [inside]
  next => simp

/-- Nothing but its progress tells whether a receive is under way. -/
theorem isUnderWay_changeReceive {change : Receive → Receive}
    (same : ∀ r, (change r).progress = r.progress) :
    (e.changeReceive number change).isUnderWay other = e.isUnderWay other := by
  simp only [isUnderWay, changeReceive, List.getElem?_modify]
  cases e.receives[other]? with
  | none => rfl
  | some r => split <;> simp [same]

theorem isUnderWay_begin : e.begin.2.isUnderWay number = true ↔
    number = e.receives.length ∨ e.isUnderWay number = true := by
  simp only [isUnderWay, begin, List.getElem?_append]
  split
  next inside =>
    exact ⟨.inr, fun either => either.resolve_left (Nat.ne_of_lt inside)⟩
  next outside =>
    rw [List.getElem?_eq_none (l := e.receives) (by omega)]
    cases rest : number - e.receives.length with
    | zero => simp; omega
    | succ n => simp; omega

/-- The end is answered where nothing is at hand and nothing can come. -/
theorem next_endOfStream (ended : e.next.1 = .ok .endOfStream) :
    e.awaiting = false ∧ e.buffered = none ∧
      (e.disconnected = true ∨ e.queue = [] ∧ e.hasSender = false) ∧
      e.next.2 = { e with disconnected := true } := by
  revert ended
  unfold next
  split
  · exact nofun
  split
  · exact nofun
  next asked =>
  have asked : e.awaiting = false := by simpa using asked
  split
  · exact nofun
  next empty =>
  split
  next disconnected =>
    intro _
    refine ⟨asked, empty, .inl disconnected, ?_⟩
    rw [← disconnected]
  split
  · exact nofun
  split
  · exact nofun
  next queue =>
  split
  · exact nofun
  next sender =>
    exact fun _ => ⟨asked, empty, .inr ⟨queue, by simpa using sender⟩, rfl⟩

end Exchange

/-- What can be done to an exchange before it is closed. Any receive may be
polled at any time, as often as one likes. -/
inductive Exchange.Action where
  | send (block : Block)
  | dropSender
  | readiness
  | poll (number : Nat)
  | release (number : Nat)
  | hasNext
  | next

/-- An exchange with the blocks that it has accepted and those that it has
handed out. -/
structure Delivery where
  exchange : Exchange
  accepted : List Block
  returned : List Block

namespace Delivery

def start (name : String) (schema : Schema) (capacity : Nat) : Delivery :=
  ⟨.create name schema capacity, [], []⟩

/-- The block that a pull hands out. -/
def given : Except Failure Answer → List Block
  | .ok (.block block) => [block]
  | _ => []

def act (d : Delivery) : Exchange.Action → Delivery
  | .send block =>
    { d with
      exchange := (d.exchange.send block).2
      accepted := d.accepted ++ if (d.exchange.send block).1 = .accepted then [block] else [] }
  | .dropSender => { d with exchange := d.exchange.dropSender.2 }
  | .readiness => { d with exchange := d.exchange.readiness.2 }
  | .poll number => { d with exchange := (d.exchange.poll number).2 }
  | .release number => { d with exchange := d.exchange.release number }
  | .hasNext => d
  | .next =>
    { d with exchange := d.exchange.next.2, returned := d.returned ++ given d.exchange.next.1 }

def run (d : Delivery) (actions : List Exchange.Action) : Delivery := actions.foldl act d

/-- At most one receive is under way, and it is the one that the source keeps.
None is while a block waits to be pulled or once the channel is disconnected. -/
structure Sound (d : Delivery) : Prop where
  running : d.exchange.closed = false
  accepting : d.exchange.accepting = true
  inOrder : d.returned ++ (d.exchange.buffered.toList ++ d.exchange.queue) = d.accepted
  own : ∀ number, d.exchange.isUnderWay number = true → d.exchange.pending = some number
  idle : d.exchange.buffered.isSome = true ∨ d.exchange.disconnected = true →
    ∀ number, d.exchange.isUnderWay number = false
  gone : d.exchange.disconnected = true → d.exchange.hasSender = false ∧ d.exchange.queue = [] ∧
    d.exchange.buffered = none

/-- The end has been answered. -/
structure Finished (d : Delivery) : Prop where
  sound : d.Sound
  disconnected : d.exchange.disconnected = true
  asked : d.exchange.awaiting = false

variable {d : Delivery}

theorem sound_start (name : String) (schema : Schema) (capacity : Nat) :
    (start name schema capacity).Sound where
  running := rfl
  accepting := rfl
  inOrder := rfl
  own := nofun
  idle := nofun
  gone := nofun

/-- An action that leaves the blocks and the receives as they are. -/
theorem Sound.keep (sound : d.Sound) {e : Exchange}
    (same : ∀ number, e.isUnderWay number = d.exchange.isUnderWay number)
    (rest : e.closed = d.exchange.closed ∧ e.accepting = d.exchange.accepting ∧
      e.buffered = d.exchange.buffered ∧ e.queue = d.exchange.queue ∧
      e.pending = d.exchange.pending ∧ e.disconnected = d.exchange.disconnected ∧
      (d.exchange.hasSender = false → e.hasSender = false)) :
    Sound { d with exchange := e } := by
  obtain ⟨closed, accepting, buffered, queue, pending, disconnected, hasSender⟩ := rest
  constructor
  · exact closed.trans sound.running
  · exact accepting.trans sound.accepting
  · rw [buffered, queue]
    exact sound.inOrder
  · intro number way
    rw [pending]
    exact sound.own number ((same number).symm.trans way)
  · intro either number
    rw [buffered, disconnected] at either
    exact (same number).trans (sound.idle either number)
  · intro ended
    rw [disconnected] at ended
    obtain ⟨sender, none, nothing⟩ := sound.gone ended
    exact ⟨hasSender sender, queue.trans none, buffered.trans nothing⟩

theorem Sound.send (sound : d.Sound) (block : Block) : (d.act (.send block)).Sound := by
  rw [act]
  unfold Exchange.send
  split
  · simpa using sound
  next hasSender =>
  split
  · simpa using sound
  split
  · simpa using sound
  refine { sound with inOrder := ?_, gone := fun ended => ?_ }
  · simp only [if_true, ← sound.inOrder, List.append_assoc]
  · exact absurd (sound.gone ended).1 (by simpa using hasSender)

theorem Sound.readiness (sound : d.Sound) : (d.act .readiness).Sound := by
  rw [act, Exchange.readiness]
  split
  · exact sound.keep (fun _ => rfl) ⟨rfl, rfl, rfl, rfl, rfl, rfl, id⟩
  next going =>
  have waits : d.exchange.buffered = none ∧ d.exchange.disconnected = false := by
    simpa [sound.running] using going
  split
  next number _ =>
    exact sound.keep (fun other => Exchange.isUnderWay_changeReceive fun _ => rfl)
      ⟨rfl, rfl, rfl, rfl, rfl, rfl, id⟩
  next free =>
    -- Nothing is under way, so the new receive is the only one.
    have idle : ∀ number, d.exchange.isUnderWay number = false := by
      intro number
      by_contra way
      have way : d.exchange.isUnderWay number = true := by simpa using way
      have own := sound.own number way
      have way : Exchange.isUnderWay { d.exchange with awaiting := false } number = true := way
      simp only [own, Option.filter_eq_none_iff] at free
      exact free number rfl way
    refine { sound with own := fun number way => ?_, idle := fun either => ?_ }
    · rcases Exchange.isUnderWay_begin.1 way with rfl | before
      · rfl
      · exact absurd (before.symm.trans (idle number)) nofun
    · rcases either with buffered | ended
      · exact absurd (buffered.symm.trans (congrArg Option.isSome waits.1)) nofun
      · exact absurd (ended.symm.trans waits.2) nofun

/-- While a receive is under way no block is at hand. -/
theorem Sound.waits (sound : d.Sound) {number : Nat}
    (way : d.exchange.isUnderWay number = true) :
    d.exchange.buffered = none ∧ d.exchange.disconnected = false := by
  have busy : ¬ (d.exchange.buffered.isSome = true ∨ d.exchange.disconnected = true) := by
    intro either
    exact absurd (way.symm.trans (sound.idle either number)) nofun
  simpa using busy

/-- The only receive under way is complete: none is left. -/
theorem Sound.idle_complete (sound : d.Sound) {number : Nat}
    (way : d.exchange.isUnderWay number = true) {e : Exchange}
    (same : e.receives = d.exchange.receives) (other : Nat) :
    (e.mark number .complete).isUnderWay other = false := by
  by_contra still
  have still := (Exchange.isUnderWay_mark e .complete).1 (by simpa using still)
  split at still
  · exact still.1 rfl
  next apart =>
    have before : d.exchange.isUnderWay other = true := by
      rwa [Exchange.isUnderWay, same] at still
    exact apart (Option.some.inj ((sound.own number way).symm.trans (sound.own other before)))

theorem Sound.poll (sound : d.Sound) (number : Nat) : (d.act (.poll number)).Sound := by
  rw [act, Exchange.poll]
  split
  · exact { sound with }
  next way =>
  have way : d.exchange.isUnderWay number = true := by simpa using way
  obtain ⟨empty, open_⟩ := sound.waits way
  split
  · exact { sound with }
  split
  next first rest queue =>
    have idle := sound.idle_complete way
      (show { d.exchange with queue := rest, buffered := some first }.receives = _ from rfl)
    refine { sound with
      inOrder := ?_
      own := fun other still => absurd (still.symm.trans (idle other)) nofun
      idle := fun _ => idle
      gone := fun ended => absurd (ended.symm.trans open_) nofun }
    have inOrder := sound.inOrder
    rw [empty, queue] at inOrder
    exact inOrder
  next queue =>
  split
  next =>
    refine { sound with own := fun other still => ?_, idle := fun either => ?_ }
    · have still := (Exchange.isUnderWay_mark d.exchange .polled).1 still
      split at still
      next same => exact same ▸ sound.own number way
      next => exact sound.own other still
    · rcases either with buffered | ended
      · exact absurd (buffered.symm.trans (congrArg Option.isSome empty)) nofun
      · exact absurd (ended.symm.trans open_) nofun
  next closed =>
    have idle := sound.idle_complete way
      (show { d.exchange with disconnected := true }.receives = _ from rfl)
    refine { sound with
      own := fun other still => absurd (still.symm.trans (idle other)) nofun
      idle := fun _ => idle
      gone := fun _ => ⟨?_, queue, empty⟩ }
    have sender : d.exchange.hasSender = false := by simpa [sound.accepting] using closed
    exact sender

theorem Sound.release (sound : d.Sound) (number : Nat) : (d.act (.release number)).Sound :=
  sound.keep (fun _ => Exchange.isUnderWay_changeReceive fun _ => rfl)
    ⟨rfl, rfl, rfl, rfl, rfl, rfl, id⟩

theorem Sound.dropSender (sound : d.Sound) : (d.act .dropSender).Sound :=
  sound.keep (fun _ => rfl) ⟨rfl, rfl, rfl, rfl, rfl, rfl, fun _ => rfl⟩

/-- Where the source keeps no receive under way, none is. -/
theorem Sound.idle_of_pending (sound : d.Sound)
    (free : d.exchange.pending.any d.exchange.isUnderWay = false) (number : Nat) :
    d.exchange.isUnderWay number = false := by
  by_contra way
  have way : d.exchange.isUnderWay number = true := by simpa using way
  rw [sound.own number way, Option.any_some, way] at free
  contradiction

theorem Sound.next (sound : d.Sound) : (d.act .next).Sound := by
  rw [act]
  unfold Exchange.next
  rw [if_neg (by simp [sound.running])]
  split
  · simpa [given] using sound
  split
  next block buffered =>
    have idle := sound.idle (.inl (by rw [buffered]; rfl))
    refine { sound with
      inOrder := ?_
      own := fun number way => absurd (way.symm.trans (idle number)) nofun
      idle := fun _ => idle
      gone := fun ended => ?_ }
    · rw [← sound.inOrder, buffered]
      simp [given]
    · obtain ⟨_, _, empty⟩ := sound.gone ended
      exact absurd (buffered.symm.trans empty) nofun
  next empty =>
  split
  · simpa [given] using sound
  next open_ =>
  split
  · simpa [given, Exchange.answerNotReady] using
      sound.keep (e := { d.exchange with awaiting := true }) (fun _ => rfl)
        ⟨rfl, rfl, rfl, rfl, rfl, rfl, id⟩
  next free =>
  have free : d.exchange.pending.any d.exchange.isUnderWay = false := by
    simp only [Bool.or_eq_true, not_or, Bool.not_eq_true] at free
    exact free.1
  split
  next first rest queue =>
    refine { sound with inOrder := ?_, gone := fun ended => absurd ended open_ }
    rw [← sound.inOrder, empty, queue]
    simp [given]
  next queue =>
  split
  · simpa [given, Exchange.answerNotReady] using
      sound.keep (e := { d.exchange with awaiting := true }) (fun _ => rfl)
        ⟨rfl, rfl, rfl, rfl, rfl, rfl, id⟩
  next sender =>
    refine { sound with
      inOrder := ?_
      idle := fun _ => sound.idle_of_pending free
      gone := fun _ => ⟨by simpa using sender, queue, empty⟩ }
    rw [← sound.inOrder]
    simp [given]

theorem Sound.act (sound : d.Sound) (action : Exchange.Action) : (d.act action).Sound := by
  cases action with
  | send block => exact sound.send block
  | dropSender => exact sound.dropSender
  | readiness => exact sound.readiness
  | poll number => exact sound.poll number
  | release number => exact sound.release number
  | hasNext => exact sound
  | next => exact sound.next

theorem Sound.run (sound : d.Sound) (actions : List Exchange.Action) : (d.run actions).Sound := by
  induction actions generalizing d with
  | nil => exact sound
  | cons action rest ih => exact ih (sound.act action)

/-- The end is answered when the sender is gone and nothing is left. -/
theorem Sound.of_endOfStream (sound : d.Sound) (ended : d.exchange.next.1 = .ok .endOfStream) :
    d.exchange.hasSender = false ∧ d.returned = d.accepted ∧ (d.act .next).Finished := by
  obtain ⟨asked, empty, last, after⟩ := Exchange.next_endOfStream ended
  have nothing : d.exchange.hasSender = false ∧ d.exchange.queue = [] := by
    rcases last with disconnected | ⟨queue, sender⟩
    · obtain ⟨sender, queue, _⟩ := sound.gone disconnected
      exact ⟨sender, queue⟩
    · exact ⟨sender, queue⟩
  have inOrder := sound.inOrder
  rw [empty, nothing.2, Option.toList_none, List.append_nil, List.append_nil] at inOrder
  refine ⟨nothing.1, inOrder, sound.next, ?_, ?_⟩
  · rw [Delivery.act, after]
  · rw [Delivery.act, after]
    exact asked

theorem Finished.next (finished : d.Finished) :
    d.exchange.next = (.ok .endOfStream, d.exchange) := by
  obtain ⟨_, _, empty⟩ := finished.sound.gone finished.disconnected
  unfold Exchange.next
  simp only [finished.sound.running, finished.asked, empty, finished.disconnected,
    Bool.false_eq_true, if_false, if_true]

theorem Finished.hasNext (finished : d.Finished) : d.exchange.hasNext = false := by
  obtain ⟨_, _, empty⟩ := finished.sound.gone finished.disconnected
  rw [Exchange.hasNext, empty, finished.disconnected]
  simp

/-- Once the end is answered nothing brings the exchange back. -/
theorem Finished.act (finished : d.Finished) (action : Exchange.Action) :
    (d.act action).Finished := by
  obtain ⟨sender, _, _⟩ := finished.sound.gone finished.disconnected
  have stays : (d.act action).exchange.disconnected = true ∧
      (d.act action).exchange.awaiting = false := by
    cases action with
    | send block =>
      simp [Delivery.act, Exchange.send, sender, finished.disconnected, finished.asked]
    | readiness => simp [Delivery.act, Exchange.readiness, finished.disconnected]
    | poll number =>
      have idle := finished.sound.idle (.inr finished.disconnected) number
      simp [Delivery.act, Exchange.poll, idle, finished.disconnected, finished.asked]
    | next => simp [Delivery.act, finished.next, finished.disconnected, finished.asked]
    | dropSender | release _ | hasNext => exact ⟨finished.disconnected, finished.asked⟩
  exact ⟨finished.sound.act action, stays.1, stays.2⟩

theorem Finished.run (finished : d.Finished) (actions : List Exchange.Action) :
    (d.run actions).Finished := by
  induction actions generalizing d with
  | nil => exact finished
  | cons action rest ih => exact ih (finished.act action)

/-- A receive that takes its turn finds the receiving end unlocked, and so does a
pull while none is under way: the two never contend for a block. -/
theorem Sound.uncontended (sound : d.Sound) :
    (∀ number, d.exchange.isUnderWay number = true → ∀ other ∈ d.exchange.lockers, other = number) ∧
    (d.exchange.pending.any d.exchange.isUnderWay = false → d.exchange.lockers = []) := by
  have way : ∀ number ∈ d.exchange.lockers, d.exchange.isUnderWay number = true := by
    intro number member
    obtain ⟨_, locks⟩ := List.mem_filter.1 member
    rw [Exchange.isUnderWay]
    cases found : d.exchange.receives[number]? with
    | none => simp [found] at locks
    | some r =>
      simp only [found, Option.any_some, Bool.and_eq_true, decide_eq_true_eq] at locks ⊢
      rw [locks.1]
      exact nofun
  constructor
  · intro number busy other member
    exact Option.some.inj ((sound.own other (way other member)).symm.trans (sound.own number busy))
  · intro free
    refine List.eq_nil_iff_forall_not_mem.2 fun number member => ?_
    exact absurd ((way number member).symm.trans (sound.idle_of_pending free number)) nofun

/-- Blocks are handed out once each and in order, in whatever order an exchange
is sent to, asked, polled and pulled; and its end is an end for good. -/
theorem run_start (name : String) (schema : Schema) (capacity : Nat)
    (actions : List Exchange.Action) :
    let d := (start name schema capacity).run actions
    d.returned ++ (d.exchange.buffered.toList ++ d.exchange.queue) = d.accepted ∧
    (d.exchange.next.1 = .ok .endOfStream →
      d.exchange.hasSender = false ∧ d.returned = d.accepted ∧
      ∀ later, ((d.act .next).run later).exchange.next.1 = .ok .endOfStream ∧
        ((d.act .next).run later).exchange.hasNext = false) := by
  intro d
  have sound : d.Sound := (sound_start name schema capacity).run actions
  refine ⟨sound.inOrder, fun ended => ?_⟩
  obtain ⟨sender, all, finished⟩ := sound.of_endOfStream ended
  refine ⟨sender, all, fun later => ?_⟩
  have still := finished.run later
  exact ⟨by rw [still.next], still.hasNext⟩

/-- A block that a receive brings, a second one without a receive, and the end. -/
def sampleActions (block : Block) : List Exchange.Action :=
  [.readiness, .send block, .next, .poll 0, .readiness, .next, .send block, .poll 0, .next,
    .dropSender]

theorem run_start_sample :
    let block : Block := ⟨"time", false, [3], [], nofun⟩
    let d := (start "x" block.schema 1).run (sampleActions block)
    d.accepted = [block, block] ∧ d.exchange.next.1 = .ok .endOfStream ∧
      d.returned ++ (d.exchange.buffered.toList ++ d.exchange.queue) = d.accepted ∧
      d.exchange.hasSender = false ∧ d.returned = d.accepted ∧
      ∀ later, ((d.act .next).run later).exchange.next.1 = .ok .endOfStream ∧
        ((d.act .next).run later).exchange.hasNext = false := by
  intro block d
  have laws := run_start "x" block.schema 1 (sampleActions block)
  have ended : d.exchange.next.1 = .ok .endOfStream := by decide
  exact ⟨by decide, ended, laws.1, laws.2 ended⟩

end Delivery
end WindowFold
