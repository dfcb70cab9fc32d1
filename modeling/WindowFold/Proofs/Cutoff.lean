import WindowFold.Proofs.Promises

/-! What closing an exchange does to its channel. A receive that was polled and is still
held outside keeps the receiving end locked, and then the channel stays open. Either way a
closed exchange hands out nothing any more. -/
namespace WindowFold

namespace Exchange
variable (e : Exchange)

section
/-! Nothing but closing makes the receiving end refuse blocks. -/

theorem accepting_readiness : e.readiness.2.accepting = e.accepting := by
  obtain ⟨_, _, frame⟩ := e.readiness_frame
  rw [frame]

theorem accepting_poll (number : Nat) : (e.poll number).2.accepting = e.accepting := by
  obtain ⟨_, _, _, _, frame⟩ := e.poll_frame number
  rw [frame]

theorem accepting_send (block : Block) : (e.send block).2.accepting = e.accepting := by
  obtain ⟨_, frame⟩ := e.send_frame block
  rw [frame]

theorem accepting_next : e.next.2.accepting = e.accepting := by
  obtain ⟨_, _, _, _, _, frame⟩ := e.next_frame
  rw [frame]

end

/-- A live sender learns from any block it sends whether the channel is closed. -/
theorem send_closed (block : Block) :
    (e.send block).1 = .closed ↔ e.hasSender = true ∧ e.accepting = false := by
  rw [send]
  split
  next dropped => simp [show e.hasSender = false by simpa using dropped]
  next sender =>
  have sender : e.hasSender = true := by simpa using sender
  split
  next closed => simp [sender, show e.accepting = false by simpa using closed]
  next accepts =>
  have accepts : e.accepting = true := by simpa using accepts
  split <;> simp [accepts]

/-- Neither sending nor pulling touches a receive. -/
theorem receives_send (block : Block) : (e.send block).2.receives = e.receives := by
  obtain ⟨_, frame⟩ := e.send_frame block
  rw [frame]

theorem receives_next : e.next.2.receives = e.receives := by
  obtain ⟨_, _, _, _, _, frame⟩ := e.next_frame
  rw [frame]

/-- A receive is as it was, or as it is changed to. -/
theorem receives_change {change : Receive → Receive} {number other : Nat} {r : Receive}
    (found : (e.changeReceive number change).receives[other]? = some r) :
    ∃ before, e.receives[other]? = some before ∧
      r = if number = other then change before else before := by
  rw [changeReceive, List.getElem?_modify] at found
  obtain ⟨before, there, rfl⟩ := Option.map_eq_some_iff.1 found
  refine ⟨before, there, ?_⟩
  split <;> rfl

end Exchange

/-- What can be done to an exchange, closed or not. -/
inductive Exchange.Use where
  | act (action : Exchange.Action)
  | close

namespace Delivery

def close (d : Delivery) : Delivery := { d with exchange := d.exchange.close }

def use (d : Delivery) : Exchange.Use → Delivery
  | .act action => d.act action
  | .close => d.close

def uses (d : Delivery) (later : List Exchange.Use) : Delivery := later.foldl use d

/-- The exchange is closed, its channel is open or closed for good, and these blocks are all
that it has ever handed out. -/
structure Shut (name : String) (accepting : Bool) (returned : List Block) (d : Delivery) :
    Prop where
  closed : d.exchange.closed = true
  named : d.exchange.name = name
  accepting : d.exchange.accepting = accepting
  returned : d.returned = returned

variable {d : Delivery} {name : String} {accepting : Bool} {returned : List Block}

theorem Shut.next (shut : d.Shut name accepting returned) :
    d.exchange.next = (.error (.protocolViolation name .pulledAfterClose), d.exchange) := by
  rw [Exchange.next, if_pos shut.closed, shut.named]

theorem Shut.use (shut : d.Shut name accepting returned) (use : Exchange.Use) :
    (d.use use).Shut name accepting returned := by
  cases use with
  | close =>
    rw [Delivery.use, close, Exchange.close, if_pos shut.closed]
    exact shut
  | act action =>
    obtain ⟨closed, named, accepts, same⟩ := shut
    have named : (d.act action).exchange.name = name := (d.name_act action).trans named
    cases action with
    | send block =>
      exact ⟨(d.exchange.closed_send block).trans closed, named,
        (d.exchange.accepting_send block).trans accepts, same⟩
    | readiness =>
      exact ⟨d.exchange.closed_readiness.trans closed, named,
        d.exchange.accepting_readiness.trans accepts, same⟩
    | poll number =>
      exact ⟨(d.exchange.closed_poll number).trans closed, named,
        (d.exchange.accepting_poll number).trans accepts, same⟩
    | dropSender | release | hasNext => exact ⟨closed, named, accepts, same⟩
    | next =>
      refine ⟨d.exchange.closed_next.trans closed, named,
        d.exchange.accepting_next.trans accepts, ?_⟩
      have nothing : given d.exchange.next.1 = [] := by
        unfold Exchange.next
        rw [if_pos closed]
        rfl
      change d.returned ++ given d.exchange.next.1 = returned
      rw [nothing, List.append_nil, same]

theorem Shut.uses (shut : d.Shut name accepting returned) (later : List Exchange.Use) :
    (d.uses later).Shut name accepting returned := by
  induction later generalizing d with
  | nil => exact shut
  | cons use rest ih => exact ih (shut.use use)

end Delivery

/-- An exchange with the tickets that are held outside it, each told by its receive, and with
the receives that have been polled. A ticket is held until its last copy is given back. -/
structure Custody where
  delivery : Delivery
  held : List Nat
  polled : List Nat

namespace Custody

def start (name : String) (schema : Schema) (capacity : Nat) : Custody :=
  ⟨.start name schema capacity, [], []⟩

/-- Only who holds a ticket can poll its receive or give the ticket back. -/
def act (c : Custody) : Exchange.Action → Custody
  | .readiness =>
    { c with
      delivery := c.delivery.act .readiness
      held := match c.delivery.exchange.readiness.1 with
        | .ready => c.held
        | .waiting ticket => ticket.receive :: c.held }
  | .poll number =>
    if number ∈ c.held then
      { c with delivery := c.delivery.act (.poll number), polled := number :: c.polled }
    else c
  | .release number =>
    if number ∈ c.held then
      { c with delivery := c.delivery.act (.release number), held := c.held.erase number }
    else c
  | action => { c with delivery := c.delivery.act action }

def run (c : Custody) (actions : List Exchange.Action) : Custody := actions.foldl act c

theorem delivery_act (c : Custody) (action : Exchange.Action) :
    (c.act action).delivery = c.delivery.act action ∨ (c.act action).delivery = c.delivery := by
  cases action with
  | poll | release =>
    rw [act]
    split
    · exact .inl rfl
    · exact .inr rfl
  | _ => exact .inl rfl

theorem name_run (c : Custody) (actions : List Exchange.Action) :
    (c.run actions).delivery.exchange.name = c.delivery.exchange.name := by
  induction actions generalizing c with
  | nil => rfl
  | cons action rest ih =>
    refine (ih _).trans ?_
    rcases c.delivery_act action with acted | idle
    · rw [acted, Delivery.name_act]
    · rw [idle]

/-- A ticket is held outside for a receive that has been polled and is not complete. -/
def Locked (c : Custody) : Prop :=
  ∃ number ∈ c.held, number ∈ c.polled ∧ c.delivery.exchange.isUnderWay number = true

instance (c : Custody) : Decidable c.Locked :=
  inferInstanceAs (Decidable (∃ number ∈ c.held, _ ∧ _))

/-- A receive counts its tickets that are held outside, and tells until it is complete
whether it has been polled. -/
def Tells (held polled : List Nat) (number : Nat) (r : Receive) : Prop :=
  r.held = held.count number ∧ (r.progress ≠ .complete → (r.progress = .polled ↔ number ∈ polled))

/-- The exchange knows who holds its receives and which of them have been polled. -/
structure Booked (c : Custody) : Prop where
  sound : c.delivery.Sound
  tells : ∀ number r, c.delivery.exchange.receives[number]? = some r →
    Tells c.held c.polled number r
  known : ∀ number, number ∈ c.held ∨ number ∈ c.polled →
    number < c.delivery.exchange.receives.length

variable {c : Custody}

theorem booked_start (name : String) (schema : Schema) (capacity : Nat) :
    (start name schema capacity).Booked where
  sound := Delivery.sound_start name schema capacity
  tells := nofun
  known := by rintro number (held | polled) <;> contradiction

/-- An action that neither polls nor concerns a ticket. -/
theorem Booked.keep (booked : c.Booked) {d : Delivery} (sound : d.Sound)
    (same : d.exchange.receives = c.delivery.exchange.receives) :
    Booked { c with delivery := d } := by
  refine ⟨sound, fun number r => ?_, fun number => ?_⟩ <;> dsimp only <;> rw [same]
  · exact booked.tells number r
  · exact booked.known number

/-- An action that concerns one receive. -/
theorem Booked.change (booked : c.Booked) {d : Delivery} (sound : d.Sound)
    {number : Nat} {change : Receive → Receive} {held polled : List Nat}
    (there : number < c.delivery.exchange.receives.length)
    (receives : d.exchange.receives = (c.delivery.exchange.changeReceive number change).receives)
    (others : ∀ other, other ≠ number →
      held.count other = c.held.count other ∧ (other ∈ polled ↔ other ∈ c.polled))
    (this : ∀ r, c.delivery.exchange.receives[number]? = some r →
      Tells held polled number (change r)) :
    Booked ⟨d, held, polled⟩ := by
  refine ⟨sound, fun other r found => ?_, fun other known => ?_⟩
  · rw [receives] at found
    obtain ⟨before, was, rfl⟩ := Exchange.receives_change _ found
    split
    next same => exact same ▸ this before (same ▸ was)
    next apart =>
      obtain ⟨count, member⟩ := others other (Ne.symm apart)
      obtain ⟨told, way⟩ := booked.tells other before was
      exact ⟨told.trans count.symm, fun going => (way going).trans member.symm⟩
  · have length : d.exchange.receives.length = c.delivery.exchange.receives.length := by
      rw [receives, Exchange.changeReceive, List.length_modify]
    change other < d.exchange.receives.length
    rw [length]
    by_cases same : other = number
    · exact same ▸ there
    · obtain ⟨count, member⟩ := others other same
      refine booked.known other (known.imp (fun holds => ?_) member.1)
      rwa [← List.count_pos_iff, ← count, List.count_pos_iff]

/-- An action that begins a receive. It is numbered after all others. -/
theorem Booked.begins (booked : c.Booked) {d : Delivery} (sound : d.Sound)
    (receives : d.exchange.receives = c.delivery.exchange.receives ++ [⟨.begun, 1⟩]) :
    Booked ⟨d, c.delivery.exchange.receives.length :: c.held, c.polled⟩ := by
  have old : ∀ {number}, number ∈ c.held ∨ number ∈ c.polled →
      number < c.delivery.exchange.receives.length := booked.known _
  refine ⟨sound, fun number r found => ?_, fun number known => ?_⟩
  · rw [receives, List.getElem?_append] at found
    split at found
    next before =>
      obtain ⟨count, polled⟩ := booked.tells number r found
      exact ⟨by rw [List.count_cons_of_ne (Nat.ne_of_gt before), count], polled⟩
    next after =>
      have member := List.mem_of_getElem? found
      obtain rfl := List.mem_singleton.1 member
      have last : number = c.delivery.exchange.receives.length := by
        obtain ⟨inside, _⟩ := List.getElem?_eq_some_iff.1 found
        simp only [List.length_singleton] at inside
        omega
      subst last
      refine ⟨?_, fun _ => ⟨nofun, fun polled => absurd (old (.inr polled)) after⟩⟩
      rw [List.count_cons_self, List.count_eq_zero.2 fun held => after (old (.inl held))]
  · change number < d.exchange.receives.length
    rw [receives, List.length_append, List.length_singleton]
    rcases known with held | polled
    · rcases List.mem_cons.1 held with rfl | held
      · exact Nat.lt_succ_self _
      · exact Nat.lt_succ_of_lt (old (.inl held))
    · exact Nat.lt_succ_of_lt (old (.inr polled))

theorem Booked.readiness (booked : c.Booked) : (c.act .readiness).Booked := by
  have sound := booked.sound.readiness
  rw [Delivery.act] at sound
  rw [act, Delivery.act]
  revert sound
  rw [Exchange.readiness]
  split
  · exact fun sound => booked.keep sound rfl
  split
  next number kept =>
    intro sound
    obtain ⟨_, way⟩ := Option.filter_eq_some_iff.1 kept
    refine booked.change sound (Exchange.inside_of_isUnderWay way) rfl
      (fun other apart => ⟨List.count_cons_of_ne (Ne.symm apart), Iff.rfl⟩) fun r found => ?_
    obtain ⟨count, polled⟩ := booked.tells number r found
    exact ⟨by simp [count], polled⟩
  · exact fun sound => booked.begins sound rfl

/-- A poll by somebody who holds a ticket. -/
theorem Booked.pollHeld (booked : c.Booked) {number : Nat} (holds : number ∈ c.held) {d : Delivery}
    (sound : d.Sound) {change : Receive → Receive}
    (receives : d.exchange.receives = (c.delivery.exchange.changeReceive number change).receives)
    (same : ∀ r, (change r).held = r.held)
    (polls : ∀ r, c.delivery.exchange.receives[number]? = some r → (change r).progress ≠ .begun) :
    Booked ⟨d, c.held, number :: c.polled⟩ := by
  refine booked.change sound (booked.known number (.inl holds)) receives
    (fun other apart => ⟨rfl, by simp [apart]⟩) fun r found => ⟨?_, fun going => ?_⟩
  · exact (same r).trans (booked.tells number r found).1
  · have waits : (change r).progress = .polled := by
      cases told : (change r).progress with
      | begun => exact absurd told (polls r found)
      | polled => rfl
      | complete => exact absurd told going
    exact ⟨fun _ => List.mem_cons_self, fun _ => waits⟩

theorem Booked.poll (booked : c.Booked) (number : Nat) : (c.act (.poll number)).Booked := by
  have sound := booked.sound.poll number
  rw [act]
  split
  next holds =>
    rw [Delivery.act] at sound ⊢
    revert sound
    rw [Exchange.poll]
    split
    next idle =>
      have unchanged : c.delivery.exchange.receives =
          (c.delivery.exchange.changeReceive number id).receives := by
        rw [Exchange.changeReceive, List.modify_id]
      refine fun sound => booked.pollHeld holds sound unchanged (fun _ => rfl) ?_
      intro r found begun
      simp [Exchange.isUnderWay, found, show r.progress = .begun from begun] at idle
    next way =>
    split
    next contended =>
      -- The receive that is under way is the only one that can lock the channel.
      obtain ⟨other, locks, apart⟩ := List.any_eq_true.1 contended
      have own := booked.sound.uncontended.1 number (by simpa using way) other locks
      exact absurd own (by simpa using apart)
    split
    · exact fun sound => booked.pollHeld holds sound rfl (fun _ => rfl) (by simp)
    split
    · exact fun sound => booked.pollHeld holds sound rfl (fun _ => rfl) (by simp)
    · exact fun sound => booked.pollHeld holds sound rfl (fun _ => rfl) (by simp)
  · exact booked

theorem Booked.release (booked : c.Booked) (number : Nat) : (c.act (.release number)).Booked := by
  rw [act]
  split
  next holds =>
    refine booked.change (booked.sound.release number) (booked.known number (.inl holds)) rfl
      (fun other apart => ⟨List.count_erase_of_ne apart, Iff.rfl⟩) fun r found => ?_
    obtain ⟨count, polled⟩ := booked.tells number r found
    exact ⟨by simp [count], polled⟩
  · exact booked

theorem Booked.act (booked : c.Booked) (action : Exchange.Action) : (c.act action).Booked := by
  cases action with
  | send block =>
    exact booked.keep (booked.sound.send block) (c.delivery.exchange.receives_send block)
  | dropSender => exact booked.keep booked.sound.dropSender rfl
  | readiness => exact booked.readiness
  | poll number => exact booked.poll number
  | release number => exact booked.release number
  | hasNext => exact booked.keep booked.sound rfl
  | next => exact booked.keep booked.sound.next c.delivery.exchange.receives_next

theorem Booked.run (booked : c.Booked) (actions : List Exchange.Action) :
    (c.run actions).Booked := by
  induction actions generalizing c with
  | nil => exact booked
  | cons action rest ih => exact ih (booked.act action)

/-- Once the exchange itself keeps none, these are the receives that lock the channel. -/
theorem Booked.mem_lockers (booked : c.Booked) {closed : Bool} {number : Nat} :
    number ∈ Exchange.lockers { c.delivery.exchange with closed := closed, pending := none } ↔
      number ∈ c.held ∧ number ∈ c.polled ∧ c.delivery.exchange.isUnderWay number = true := by
  rw [Exchange.lockers, List.mem_filter, List.mem_range, Exchange.isUnderWay]
  cases found : c.delivery.exchange.receives[number]? with
  | none => simp
  | some r =>
    obtain ⟨inside, _⟩ := List.getElem?_eq_some_iff.1 found
    obtain ⟨count, polled⟩ := booked.tells number r found
    rw [← List.count_pos_iff (l := c.held), ← count]
    simp only [inside, true_and, Option.any_some, Bool.and_eq_true, Bool.or_eq_true,
      decide_eq_true_eq, reduceCtorEq, false_or]
    constructor
    · rintro ⟨waits, holds⟩
      have going : r.progress ≠ .complete := by simp [waits]
      exact ⟨holds, (polled going).1 waits, going⟩
    · rintro ⟨holds, member, going⟩
      exact ⟨(polled going).2 member, holds⟩

theorem Booked.close (booked : c.Booked) : c.delivery.close.Shut c.delivery.exchange.name
    (decide c.Locked) c.delivery.returned := by
  have free : (Exchange.lockers { c.delivery.exchange with
      closed := true, pending := none }).isEmpty = true ↔ ¬ c.Locked := by
    rw [List.isEmpty_iff, List.eq_nil_iff_forall_not_mem]
    constructor
    · rintro none ⟨number, holds⟩
      exact none number (booked.mem_lockers.2 holds)
    · exact fun free number locks => free ⟨number, booked.mem_lockers.1 locks⟩
  rw [Delivery.close, Exchange.close, if_neg (by simp [booked.sound.running])]
  dsimp only
  split
  next empty => exact ⟨rfl, rfl, (decide_eq_false (free.1 empty)).symm, rfl⟩
  next busy =>
    refine ⟨rfl, rfl, ?_, rfl⟩
    exact booked.sound.accepting.trans (decide_eq_true (not_not.1 (mt free.2 busy))).symm

/-- Closing an exchange closes its channel unless a ticket is held outside for a receive that
has been polled and is not complete; what is done later does not change that. The closed
exchange is at its end for good: a pull is refused, and no block is handed out again. -/
theorem close_cuts_off (name : String) (schema : Schema) (capacity : Nat)
    (actions : List Exchange.Action) (later : List Exchange.Use) :
    let c := (start name schema capacity).run actions
    let d := c.delivery.close.uses later
    (d.exchange.accepting = false ↔ ¬ c.Locked) ∧
    (∀ block, (d.exchange.send block).1 = .closed ↔ d.exchange.hasSender = true ∧ ¬ c.Locked) ∧
    d.exchange.next = (.error (.protocolViolation name .pulledAfterClose), d.exchange) ∧
    d.exchange.hasNext = false ∧ d.exchange.readiness.1 = .ready ∧
    d.returned = c.delivery.returned := by
  intro c d
  have booked : c.Booked := (booked_start name schema capacity).run actions
  have named : c.delivery.exchange.name = name := name_run _ actions
  have shut := booked.close.uses later
  have accepting : d.exchange.accepting = false ↔ ¬ c.Locked := by
    rw [shut.accepting, decide_eq_false_iff_not]
  refine ⟨accepting, fun block => ?_, ?_, ?_, ?_, shut.returned⟩
  · rw [d.exchange.send_closed block, accepting]
  · rw [← named]
    exact shut.next
  · rw [Exchange.hasNext, show d.exchange.closed = true from shut.closed]
    rfl
  · rw [Exchange.readiness, if_pos (by simp [show d.exchange.closed = true from shut.closed])]

/-- A receive that was polled locks the channel for as long as its ticket is held. -/
example :
    let c := (start "x" [] 1).run [.readiness, .poll 0]
    c.Locked ∧ ¬ (c.act (.release 0)).Locked := by decide

end Custody
end WindowFold
