import WindowFold.Proofs.Asking
import WindowFold.Proofs.BlockCalls
import WindowFold.Proofs.Delivery

/-! What a source has to give to the stage above it: the blocks of a replay, or those
that an exchange holds and those that are still to be sent to it. -/
namespace WindowFold

namespace Exchange
variable {e : Exchange}

/-- The blocks that have been accepted and not handed out. -/
def holds (e : Exchange) : List Block := e.buffered.toList ++ e.queue

/-- As a delivery that has handed out nothing yet. -/
def delivery (e : Exchange) : Delivery := ⟨e, e.holds, []⟩

/-- No receive is at odds with what the exchange holds. -/
def Sound (e : Exchange) : Prop := e.delivery.Sound

theorem sound_of_delivery {d : Delivery} (sound : d.Sound) : d.exchange.Sound :=
  { sound with inOrder := rfl }

theorem sound_create (name : String) (schema : Schema) (capacity : Nat) :
    (create name schema capacity).Sound := Delivery.sound_start name schema capacity

/-- An action that neither brings a block nor takes one. -/
theorem Sound.keeps (sound : e.Sound) (action : Action) {f : Exchange}
    (acted : e.delivery.act action = ⟨f, e.holds, []⟩) : f.Sound ∧ f.holds = e.holds := by
  have after := Delivery.Sound.act sound action
  rw [acted] at after
  exact ⟨sound_of_delivery after, after.inOrder⟩

theorem Sound.readiness (sound : e.Sound) :
    e.readiness.2.Sound ∧ e.readiness.2.holds = e.holds := sound.keeps .readiness rfl

theorem Sound.poll (sound : e.Sound) (number : Nat) :
    (e.poll number).2.Sound ∧ (e.poll number).2.holds = e.holds :=
  sound.keeps (.poll number) rfl

theorem Sound.release (sound : e.Sound) (number : Nat) :
    (e.release number).Sound ∧ (e.release number).holds = e.holds :=
  sound.keeps (.release number) rfl

theorem Sound.dropSender (sound : e.Sound) :
    e.dropSender.2.Sound ∧ e.dropSender.2.holds = e.holds := sound.keeps .dropSender rfl

theorem Sound.send (sound : e.Sound) (block : Block) :
    (e.send block).2.Sound ∧ (e.send block).2.holds =
      e.holds ++ if (e.send block).1 = .accepted then [block] else [] := by
  have after := Delivery.Sound.send sound block
  exact ⟨sound_of_delivery after, after.inOrder⟩

theorem Sound.next (sound : e.Sound) :
    e.next.2.Sound ∧ Delivery.given e.next.1 ++ e.next.2.holds = e.holds := by
  have after := Delivery.Sound.next sound
  exact ⟨sound_of_delivery after, after.inOrder⟩

/-- Nothing is left once the end is told or given. -/
theorem Sound.nothing (sound : e.Sound) (ended : e.hasNext = false ∨ e.next.1 = .ok .endOfStream) :
    e.hasSender = false ∧ e.holds = [] := by
  rcases ended with told | given
  · rw [hasNext, show e.closed = false from sound.running] at told
    simp only [Bool.not_false, Bool.true_and, Bool.or_eq_false_iff, Option.isSome_eq_false_iff,
      Option.isNone_iff_eq_none, Bool.not_eq_false'] at told
    obtain ⟨sender, queue, buffered⟩ := Delivery.Sound.gone sound told.2
    exact ⟨sender, List.append_eq_nil_iff.2 ⟨Option.toList_eq_nil_iff.2 buffered, queue⟩⟩
  · obtain ⟨sender, all, _⟩ := Delivery.Sound.of_endOfStream sound given
    exact ⟨sender, all.symm⟩

/-- An open exchange that was asked answers. -/
theorem next_ok (running : e.closed = false) (asked : e.awaiting = false) :
    ∃ answer, e.next.1 = .ok answer := by
  unfold next
  rw [if_neg (by simp [running]), if_neg (by simp [asked])]
  split
  · exact ⟨_, rfl⟩
  split
  · exact ⟨_, rfl⟩
  split
  · exact ⟨_, rfl⟩
  split
  · exact ⟨_, rfl⟩
  split <;> exact ⟨_, rfl⟩

section
variable (e : Exchange)

/-- Only the sender itself changes the sending end. -/
theorem sender_readiness : e.readiness.2.name = e.name ∧ e.readiness.2.hasSender = e.hasSender := by
  obtain ⟨_, _, frame⟩ := e.readiness_frame
  rw [frame]
  exact ⟨rfl, rfl⟩

theorem sender_poll (number : Nat) :
    (e.poll number).2.name = e.name ∧ (e.poll number).2.hasSender = e.hasSender := by
  obtain ⟨_, _, _, _, frame⟩ := e.poll_frame number
  rw [frame]
  exact ⟨rfl, rfl⟩

theorem sender_send (block : Block) :
    (e.send block).2.name = e.name ∧ (e.send block).2.hasSender = e.hasSender := by
  obtain ⟨_, frame⟩ := e.send_frame block
  rw [frame]
  exact ⟨rfl, rfl⟩

theorem sender_next : e.next.2.name = e.name ∧ e.next.2.hasSender = e.hasSender := by
  obtain ⟨_, _, _, _, _, frame⟩ := e.next_frame
  rw [frame]
  exact ⟨rfl, rfl⟩

end

end Exchange

theorem Replay.create_eq_ok {name : String} {schema : Schema} {blocks : List Block} {r : Replay} :
    create name schema blocks = .ok r ↔
      (∀ b ∈ blocks, b.schema.types = schema.types) ∧ r = ⟨name, schema, blocks, false⟩ := by
  rw [create]
  split
  next same =>
    have types : ∀ b ∈ blocks, b.schema.types = schema.types := fun b member => by
      simpa [Schema.agrees] using List.all_eq_true.1 same b member
    exact ⟨fun made => ⟨types, (Except.ok.inj made).symm⟩, fun made => by rw [made.2]⟩
  next strange =>
    refine ⟨nofun, fun made => absurd (List.all_eq_true.2 fun b member => ?_) strange⟩
    simpa [Schema.agrees] using made.1 b member

namespace Source

/-- The source has these blocks to give in the end. Those that are still to be sent over
its channel are the last of them, and the sender is there as long as there are any. -/
inductive Bears (channel : String) (unsent : List Block) : Source → List Block → Prop where
  | replay {r : Replay} (running : r.closed = false) : Bears channel unsent (.replay r) r.blocks
  | exchange {e : Exchange} (named : e.name = channel) (sound : e.Sound)
      (sender : e.hasSender = false → unsent = []) :
      Bears channel unsent (.exchange e) (e.holds ++ unsent)

variable {channel : String} {unsent blocks : List Block} {s : Source} {scan : Scan}
  {fresh : List Aggregator}

/-- A source that is fed is an exchange. -/
theorem Bears.exists_exchange (bears : s.Bears channel unsent blocks) (fed : s.isFed = true) :
    ∃ e, s = .exchange e := by
  cases bears with
  | replay => contradiction
  | @exchange e => exact ⟨e, rfl⟩

theorem Bears.told (bears : s.Bears channel unsent blocks) :
    Told Operator.hasNext (Tree.source s) blocks := by
  cases bears with
  | @replay r running =>
    refine ⟨r.hasNext, rfl, fun last => ?_⟩
    simpa [Replay.hasNext, running] using last
  | @exchange e _ sound sender =>
    refine ⟨e.hasNext, rfl, fun last => ?_⟩
    obtain ⟨gone, nothing⟩ := sound.nothing (.inl last)
    rw [nothing, sender gone]
    rfl

theorem Bears.readiness (bears : s.Bears channel unsent blocks) :
    s.readiness.2.Bears channel unsent blocks := by
  cases bears with
  | replay running => exact .replay running
  | @exchange e named sound sender =>
    obtain ⟨after, same⟩ := sound.readiness
    rw [← same]
    obtain ⟨name, still⟩ := e.sender_readiness
    exact .exchange (name.trans named) after fun gone => sender (still.symm.trans gone)

/-- A source is the last on the way of its tickets. -/
theorem Bears.path (bears : s.Bears channel unsent blocks) {ticket : Ticket}
    (waits : s.readiness.1 = .waiting ticket) : ticket.path = [] := by
  cases bears with
  | replay => contradiction
  | @exchange e =>
    have waits : e.readiness.1 = .waiting ticket := waits
    rw [Exchange.readiness] at waits
    split at waits
    · contradiction
    split at waits <;> cases waits <;> rfl

theorem Bears.poll (bears : s.Bears channel unsent blocks) (ticket : Ticket) :
    (s.poll ticket).2.Bears channel unsent blocks := by
  cases bears with
  | replay running => exact .replay running
  | @exchange e named sound sender =>
    obtain ⟨after, same⟩ := sound.poll ticket.receive
    rw [← same]
    obtain ⟨name, still⟩ := e.sender_poll ticket.receive
    exact .exchange (name.trans named) after fun gone => sender (still.symm.trans gone)

theorem Bears.release (bears : s.Bears channel unsent blocks) (ticket : Ticket) :
    (Operator.release ticket s).Bears channel unsent blocks := by
  cases bears with
  | replay running => exact .replay running
  | @exchange e named sound sender =>
    obtain ⟨after, same⟩ := sound.release ticket.receive
    rw [← same]
    exact .exchange (e := e.release ticket.receive) named after sender

/-- A pull brings the next block, if it brings one. A replay always does. -/
theorem Bears.next (bears : s.Bears channel unsent blocks) (asked : s.isAwaiting = false)
    (more : Operator.hasNext s = .ok true) :
    ∃ after, Deal False scan fresh blocks after s.next.1 ∧ s.next.2.Bears channel unsent after ∧
      (s.isFed = false → after.length < blocks.length) := by
  cases bears with
  | @replay r running =>
    have some : r.blocks ≠ [] := by
      have more : r.hasNext = true := Except.ok.inj more
      simpa [Replay.hasNext, running] using more
    obtain ⟨block, rest, blocks⟩ := List.exists_cons_of_ne_nil some
    have given : r.next = (.ok (.block block), { r with blocks := rest }) := by
      simp only [Replay.next, running, blocks, Bool.false_eq_true, if_false]
    refine ⟨rest, ?_, ?_, fun _ => by simp [blocks]⟩
    · change Deal _ _ _ _ _ (r.next.map id Source.replay).1
      rw [given, blocks]
      exact .block block rest
    · change Bears _ _ (r.next.map id Source.replay).2 _
      rw [given]
      exact .replay (r := { r with blocks := rest }) running
  | @exchange e named sound sender =>
    obtain ⟨after, conserved⟩ := sound.next
    obtain ⟨name, still⟩ := e.sender_next
    refine ⟨e.next.2.holds ++ unsent, ?_, .exchange (name.trans named) after fun gone =>
      sender (still.symm.trans gone), fun unfed => absurd unfed (by simp [isFed])⟩
    change Deal _ _ _ _ _ e.next.1
    obtain ⟨answer, given⟩ := Exchange.next_ok (show e.closed = false from sound.running) asked
    rw [← conserved, given]
    cases answer with
    | block b => exact .block b _
    | notReady => exact .wait _
    | endOfStream =>
      obtain ⟨gone, nothing⟩ := sound.nothing (.inr given)
      rw [nothing, given] at conserved
      have left : e.next.2.holds = [] := conserved
      rw [left, sender gone]
      exact .ended

end Source
end WindowFold
