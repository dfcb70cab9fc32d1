import WindowFold.Proofs.Supply

/-! What the readiness of an exchange is good for. Once it is reached the next pull brings
a block or the end; and a pull is refused just if the one before it had nothing and the
readiness was not asked for since. -/
namespace WindowFold

def Readiness.isReached {σ : Type} [Operator σ] (s : σ) : Readiness → Bool
  | ready => true
  | waiting ticket => Operator.isComplete ticket s

namespace Exchange
variable {e : Exchange} {r : Readiness}

/-- A pull need not look into the channel. -/
def AtHand (e : Exchange) : Prop := e.buffered.isSome = true ∨ e.disconnected = true

theorem next_of_atHand (running : e.closed = false) (asked : e.awaiting = false)
    (atHand : e.AtHand) :
    (∃ block, e.next.1 = .ok (.block block)) ∨ e.next.1 = .ok .endOfStream := by
  unfold next
  rw [if_neg (by simp [running]), if_neg (by simp [asked])]
  split
  next block _ => exact .inl ⟨block, rfl⟩
  next empty =>
    have disconnected : e.disconnected = true := by simpa [AtHand, empty] using atHand
    rw [if_pos disconnected]
    exact .inr rfl

/-- An open exchange refuses a pull only where it waits to be asked, and then nothing
changes. -/
theorem next_refused (running : e.closed = false) (waits : e.awaiting = true) :
    e.next = (.error (.protocolViolation e.name .readinessNotChecked), e) := by
  unfold next
  rw [if_neg (by simp [running]), if_pos waits]

/-- A pull that fails leaves an open exchange waiting to be asked, and one that has
nothing makes it wait. -/
theorem awaiting_next (running : e.closed = false) : e.next.2.awaiting = true ↔
    e.awaiting = true ∧ (∃ failure, e.next.1 = .error failure) ∨ e.next.1 = .ok .notReady := by
  cases waits : e.awaiting with
  | true => simp [next_refused running waits, waits]
  | false =>
    unfold next
    rw [if_neg (by simp [running]), if_neg (by simp [waits])]
    split
    · simp [waits]
    split
    · simp [waits]
    split
    · simp [answerNotReady]
    split
    · simp [waits]
    split
    · simp [answerNotReady]
    · simp [waits]

/-- What was told of the readiness still stands: the receive that is waited for is under
way, or it has brought something. -/
structure Stands (r : Readiness) (e : Exchange) : Prop where
  asked : e.awaiting = false
  waits : (∃ ticket, r = .waiting ticket ∧ e.isUnderWay ticket.receive = true) ∨ e.AtHand

theorem inside_of_isUnderWay {number : Nat} (way : e.isUnderWay number = true) :
    number < e.receives.length := by
  by_contra outside
  simp [isUnderWay, List.getElem?_eq_none (Nat.le_of_not_lt outside)] at way

theorem isUnderWay_hold (e : Exchange) (number : Nat) {other : Nat} :
    (e.changeReceive number fun r => { r with held := r.held + 1 }).isUnderWay other =
      e.isUnderWay other :=
  isUnderWay_changeReceive fun _ => rfl

theorem isUnderWay_release (e : Exchange) (number : Nat) {other : Nat} :
    (e.release number).isUnderWay other = e.isUnderWay other :=
  isUnderWay_changeReceive fun _ => rfl

theorem stands_readiness (running : e.closed = false) :
    Stands e.readiness.1 e.readiness.2 := by
  refine ⟨e.awaiting_readiness, ?_⟩
  rw [readiness]
  split
  next atHand =>
    rw [running, Bool.false_or, Bool.or_eq_true] at atHand
    exact .inr atHand
  split
  next number kept =>
    obtain ⟨_, way⟩ := Option.filter_eq_some_iff.1 kept
    exact .inl ⟨_, rfl, (isUnderWay_hold _ number).trans way⟩
  · exact .inl ⟨_, rfl, isUnderWay_begin.2 (.inl rfl)⟩

theorem Stands.atHand (stands : Stands r e) (reached : r.isReached e = true) : e.AtHand := by
  rcases stands.waits with ⟨ticket, rfl, way⟩ | atHand
  · have complete : (!e.isUnderWay ticket.receive) = true := reached
    rw [way] at complete
    cases complete
  · exact atHand

theorem Stands.keep {f : Exchange} (stands : Stands r e)
    (same : ∀ number, e.isUnderWay number = true → f.isUnderWay number = true)
    (rest : f.awaiting = e.awaiting ∧ f.buffered = e.buffered ∧ f.disconnected = e.disconnected) :
    Stands r f := by
  obtain ⟨awaiting, buffered, disconnected⟩ := rest
  refine ⟨awaiting.trans stands.asked, ?_⟩
  rcases stands.waits with ⟨ticket, waited, way⟩ | atHand
  · exact .inl ⟨ticket, waited, same _ way⟩
  · exact .inr (by rwa [AtHand, buffered, disconnected])

theorem Stands.send (stands : Stands r e) (block : Block) : Stands r (e.send block).2 := by
  rw [Exchange.send]
  split
  · exact stands
  split
  · exact stands
  split
  · exact stands
  · exact stands.keep (fun _ => id) ⟨rfl, rfl, rfl⟩

/-- Asking again begins a receive only where none is under way. -/
theorem Stands.readiness (stands : Stands r e) : Stands r e.readiness.2 := by
  rw [Exchange.readiness]
  split
  · exact stands.keep (fun _ => id) ⟨stands.asked.symm, rfl, rfl⟩
  split
  · exact stands.keep (fun _ way => (isUnderWay_hold _ _).trans way)
      ⟨stands.asked.symm, rfl, rfl⟩
  · exact stands.keep (fun _ way => isUnderWay_begin.2 (.inr way))
      ⟨stands.asked.symm, rfl, rfl⟩

/-- A poll that ends a receive brings something; any other leaves it under way. -/
theorem Stands.poll (stands : Stands r e) (number : Nat) : Stands r (e.poll number).2 := by
  refine ⟨(e.awaiting_poll number).trans stands.asked, ?_⟩
  rw [Exchange.poll]
  split
  · exact stands.waits
  next way =>
  split
  · exact stands.waits
  split
  · exact .inr (.inl rfl)
  split
  · refine (stands.keep (f := e.mark number .polled) (fun other still => ?_) ⟨rfl, rfl, rfl⟩).waits
    rw [isUnderWay_mark]
    split
    next same =>
      exact ⟨by simp, inside_of_isUnderWay (by simpa using way)⟩
    · exact still
  · exact .inr (.inr rfl)

theorem Stands.release (stands : Stands r e) (number : Nat) : Stands r (e.release number) :=
  stands.keep (fun _ way => (e.isUnderWay_release number).trans way) ⟨rfl, rfl, rfl⟩

end Exchange

namespace Delivery
variable {d : Delivery} {actions : List Exchange.Action} {action : Exchange.Action} {r : Readiness}

theorem stands_act (stands : d.exchange.Stands r) (other : action ≠ .next) :
    (d.act action).exchange.Stands r := by
  cases action with
  | send block => exact stands.send block
  | dropSender => exact stands.keep (fun _ => id) ⟨rfl, rfl, rfl⟩
  | readiness => exact stands.readiness
  | poll number => exact stands.poll number
  | release number => exact stands.release number
  | hasNext => exact stands
  | next => exact absurd rfl other

theorem stands_run (stands : d.exchange.Stands r) (unpulled : .next ∉ actions) :
    (d.run actions).exchange.Stands r := by
  induction actions generalizing d with
  | nil => exact stands
  | cons action rest ih =>
    rw [List.mem_cons, not_or] at unpulled
    exact ih (stands_act stands (Ne.symm unpulled.1)) unpulled.2

/-- The last pull that did not fail had nothing, and the readiness was not asked for
since. -/
def Unasked (d : Delivery) (actions : List Exchange.Action) : Prop :=
  ∃ before since, actions = before ++ .next :: since ∧
    (d.run before).exchange.next.1 = .ok .notReady ∧ .readiness ∉ since ∧
    ∀ early late, since = early ++ .next :: late →
      ∃ failure, (d.run (before ++ .next :: early)).exchange.next.1 = .error failure

theorem unasked_nil : ¬ d.Unasked [] := by
  rintro ⟨before, since, same, _⟩
  simp at same

/-- One more action leaves it unasked, or is a pull that has nothing. -/
theorem unasked_concat : d.Unasked (actions ++ [action]) ↔
    d.Unasked actions ∧ action ≠ .readiness ∧
        (action = .next → ∃ failure, (d.run actions).exchange.next.1 = .error failure) ∨
      action = .next ∧ (d.run actions).exchange.next.1 = .ok .notReady := by
  constructor
  · rintro ⟨before, since, same, waits, unasked, refused⟩
    -- The pull that had nothing is the last action, or one before that.
    rcases since.eq_nil_or_concat' with rfl | ⟨init, last, rfl⟩
    · obtain ⟨rfl, last⟩ := List.append_inj' same rfl
      obtain rfl := (List.singleton_inj.1 last)
      exact .inr ⟨rfl, waits⟩
    · rw [← List.cons_append, ← List.append_assoc] at same
      obtain ⟨rfl, last⟩ := List.append_inj' same rfl
      obtain rfl := List.singleton_inj.1 last
      rw [List.mem_append, List.mem_singleton, not_or] at unasked
      refine .inl ⟨⟨before, init, rfl, waits, unasked.1, fun early late split => ?_⟩,
        Ne.symm unasked.2, ?_⟩
      · exact refused early (late ++ [action]) (by rw [split, List.append_assoc]; rfl)
      · rintro rfl
        exact refused init [] rfl
  · rintro (⟨⟨before, since, rfl, waits, unasked, refused⟩, other, fails⟩ | ⟨rfl, waits⟩)
    · refine ⟨before, since ++ [action], by simp, waits, ?_, fun early late split => ?_⟩
      · rw [List.mem_append, List.mem_singleton, not_or]
        exact ⟨unasked, Ne.symm other⟩
      · rcases late.eq_nil_or_concat' with rfl | ⟨init, last, rfl⟩
        · obtain ⟨rfl, last⟩ := List.append_inj' split rfl
          exact fails (List.singleton_inj.1 last)
        · rw [← List.cons_append, ← List.append_assoc] at split
          exact refused early init (List.append_inj' split rfl).1
    · exact ⟨actions, [], rfl, waits, List.not_mem_nil, by simp⟩

theorem awaiting_act (running : d.exchange.closed = false) :
    (d.act action).exchange.awaiting = true ↔
      d.exchange.awaiting = true ∧ action ≠ .readiness ∧
          (action = .next → ∃ failure, d.exchange.next.1 = .error failure) ∨
        action = .next ∧ d.exchange.next.1 = .ok .notReady := by
  cases action with
  | send block => simp [act, d.exchange.awaiting_send block]
  | poll number => simp [act, d.exchange.awaiting_poll number]
  | readiness => simp [act, d.exchange.awaiting_readiness]
  | dropSender | release | hasNext =>
    simp [act, Exchange.dropSender, Exchange.release, Exchange.changeReceive]
  | next => simpa [act] using Exchange.awaiting_next running

/-- The flag of the exchange tells what was done to it since it was opened. -/
theorem awaiting_run (sound : d.Sound) (asked : d.exchange.awaiting = false) :
    (d.run actions).exchange.awaiting = true ↔ d.Unasked actions := by
  induction actions using List.reverseRecOn with
  | nil => simpa [run, asked] using unasked_nil
  | append_singleton before action ih =>
    rw [unasked_concat, ← ih, run, List.foldl_append]
    exact awaiting_act (sound.run before).running

theorem name_act (d : Delivery) (action : Exchange.Action) :
    (d.act action).exchange.name = d.exchange.name := by
  cases action with
  | send block => exact (d.exchange.sender_send block).1
  | readiness => exact d.exchange.sender_readiness.1
  | poll number => exact (d.exchange.sender_poll number).1
  | next => exact d.exchange.sender_next.1
  | dropSender | release | hasNext => rfl

theorem name_run (d : Delivery) (actions : List Exchange.Action) :
    (d.run actions).exchange.name = d.exchange.name := by
  induction actions generalizing d with
  | nil => rfl
  | cons action rest ih => exact (ih _).trans (d.name_act action)

/-- An open exchange keeps what its readiness promises. Once that is reached, the next
pull brings a block or the end, whatever else is done before it. A pull fails just if the
last one that did not had nothing and the readiness was not asked for since; it then leaves
everything as it was. -/
theorem readiness_kept (name : String) (schema : Schema) (capacity : Nat)
    (actions : List Exchange.Action) :
    let d := (start name schema capacity).run actions
    (∀ early late, .next ∉ early → .next ∉ late →
      let reached := (d.act .readiness).run early
      d.exchange.readiness.1.isReached reached.exchange = true →
        (∃ block, (reached.run late).exchange.next.1 = .ok (.block block)) ∨
          (reached.run late).exchange.next.1 = .ok .endOfStream) ∧
    ((∃ failure, d.exchange.next.1 = .error failure) ↔
      (start name schema capacity).Unasked actions) ∧
    ∀ failure, d.exchange.next.1 = .error failure →
      d.exchange.next = (.error (.protocolViolation name .readinessNotChecked), d.exchange) := by
  intro d
  have opened := sound_start name schema capacity
  have sound : d.Sound := opened.run actions
  have refused : ∀ failure, d.exchange.next.1 = .error failure → d.exchange.awaiting = true := by
    intro failure failed
    by_contra asked
    obtain ⟨answer, given⟩ := Exchange.next_ok sound.running (by simpa using asked)
    exact absurd (failed.symm.trans given) nofun
  refine ⟨?_, ?_, fun failure failed => ?_⟩
  · intro early late unpulled after reached hold
    have stands : reached.exchange.Stands d.exchange.readiness.1 :=
      stands_run (Exchange.stands_readiness sound.running) unpulled
    -- What is at hand stays there until it is pulled.
    have stays : (reached.run late).exchange.Stands .ready :=
      stands_run ⟨stands.asked, .inr (stands.atHand hold)⟩ after
    have running := (((sound.act .readiness).run early).run late).running
    exact Exchange.next_of_atHand running stays.asked (stays.atHand rfl)
  · rw [← awaiting_run opened rfl]
    refine ⟨fun ⟨failure, failed⟩ => refused failure failed, fun waits => ?_⟩
    exact ⟨_, congrArg Prod.fst (Exchange.next_refused sound.running waits)⟩
  · rw [Exchange.next_refused sound.running (refused failure failed)]
    rw [show d.exchange.name = name from name_run _ actions]

theorem readiness_kept_sample :
    let block : Block := ⟨"time", false, [3], [], nofun⟩
    let d := (start "x" block.schema 1).run [.next, .hasNext]
    d.exchange.next = (.error (.protocolViolation "x" .readinessNotChecked), d.exchange) ∧
    let reached := (d.act .readiness).run [.send block, .poll 0]
    .next ∉ [.send block, Exchange.Action.poll 0] ∧ .next ∉ [Exchange.Action.release 0] ∧
      d.exchange.readiness.1.isReached reached.exchange = true ∧
      ((∃ block, (reached.run [.release 0]).exchange.next.1 = .ok (.block block)) ∨
        (reached.run [.release 0]).exchange.next.1 = .ok .endOfStream) := by
  intro block d
  have laws := readiness_kept "x" block.schema 1 [.next, .hasNext]
  have before : .next ∉ [.send block, Exchange.Action.poll 0] := by simp
  have after : .next ∉ [Exchange.Action.release 0] := by simp
  exact ⟨laws.2.2 _ rfl, before, after, by decide, laws.1 _ _ before after (by decide)⟩

end Delivery
end WindowFold
