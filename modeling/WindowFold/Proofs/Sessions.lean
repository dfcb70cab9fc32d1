import WindowFold.Driver
import WindowFold.Proofs.Asking

/-! A tree driven while its channels are sent to. As long as no readiness check
overlooks a source that has still to be asked, no pull breaks a rule. -/
namespace WindowFold

/-- A driver, and the receive that its pending future waits for. -/
structure Session where
  driver : Driver (Tree Source)
  awaited : Option Ticket

namespace Session

/-- What may happen between the parties. A future that waits may be polled on,
or dropped, which gives up its wait. -/
inductive Event where
  | send (channel : String) (block : Block)
  | dropSender (channel : String)
  | turn
  | giveUp

def start (name : String) (tree : Tree Source) : Session := ⟨.create name tree, none⟩

def root (s : Session) : Tree Source := s.driver.root

def withRoot (s : Session) (tree : Tree Source) : Session :=
  { s with driver := { s.driver with root := tree } }

def step (s : Session) : Event → Session
  | .send channel block => s.withRoot (s.root.send channel block).2
  | .dropSender channel => s.withRoot (s.root.dropSender channel).2
  | .turn =>
    let (turn, driver) := s.driver.turn s.awaited
    match turn with
    | .blocked ticket => ⟨driver, some ticket⟩
    | _ => ⟨driver, none⟩
  | .giveUp =>
    match s.awaited with
    | some ticket => { s.withRoot (s.root.release ticket) with awaited := none }
    | none => s

/-- What the turns of a session come to. -/
def outcomes : Session → List Event → List Turn
  | _, [] => []
  | s, .turn :: rest => (s.driver.turn s.awaited).1 :: outcomes (s.step .turn) rest
  | s, event :: rest => outcomes (s.step event) rest

/-- A pull fails for a broken rule. -/
def Breaks (s : Session) (events : List Event) : Prop :=
  ∃ operator breach activity,
    Turn.failed ⟨.protocolViolation operator breach, activity⟩ ∈ s.outcomes events

/-- A turn that asks the root would leave a source unasked that it may then pull. -/
def Overlooks (s : Session) : Prop :=
  s.awaited = none ∧ s.root.hasNext = .ok true ∧ s.root.readiness.2.Owed

/-- No turn of the session overlooks a source. -/
def Careful : Session → List Event → Prop
  | _, [] => True
  | s, event :: rest => (event = .turn → ¬ s.Overlooks) ∧ Careful (s.step event) rest

/-- Everything is open, and while a future waits nothing is left unasked. -/
structure Sound (s : Session) : Prop where
  running : s.root.shape.Open
  asked : s.awaited ≠ none → ¬ s.root.Owed

/-- The turn does not fail for a broken rule. -/
def TurnLawful (turn : Turn) : Prop :=
  ∀ operator breach activity, turn ≠ .failed ⟨.protocolViolation operator breach, activity⟩

end Session

namespace Driver
variable {d : Driver (Tree Source)}

theorem shape_pull (d : Driver (Tree Source)) : d.pull.2.root.shape = d.root.shape := by
  have shape := d.root.shape_next
  rcases pulled : d.root.next with ⟨outcome, root⟩
  rw [pulled] at shape
  have pulled : Operator.next d.root = (outcome, root) := pulled
  simp only [pull, pulled]
  rcases outcome with e | _ | _ | _ <;> exact shape

/-- A pull of a tree of which everything is open and asked. -/
theorem lawful_pull (running : d.root.shape.Open) (asked : ¬ d.root.Owed) :
    Session.TurnLawful d.pull.1 := by
  have lawful := d.root.lawful_next running asked
  rcases pulled : d.root.next with ⟨outcome, root⟩
  rw [pulled] at lawful
  have pulled : Operator.next d.root = (outcome, root) := pulled
  simp only [pull, pulled]
  rcases outcome with e | _ | _ | _
  · intro operator breach activity same
    cases same
    exact lawful operator breach rfl
  all_goals exact nofun

theorem pull_not_blocked (d : Driver (Tree Source)) (ticket : Ticket) :
    d.pull.1 ≠ .blocked ticket := by
  rcases pulled : Operator.next d.root with ⟨outcome, root⟩
  simp only [pull, pulled]
  rcases outcome with e | _ | _ | _ <;> exact nofun

theorem await_eq (d : Driver (Tree Source)) (ticket : Ticket) :
    d.await ticket = if (d.root.poll ticket).1 then
      pull { d with root := (d.root.poll ticket).2.release ticket }
    else (.blocked ticket, { d with root := (d.root.poll ticket).2 }) := rfl

theorem shape_await (d : Driver (Tree Source)) (ticket : Ticket) :
    (d.await ticket).2.root.shape = d.root.shape := by
  rw [await_eq]
  split
  · rw [shape_pull]
    exact (Tree.shape_release ticket _).trans (d.root.shape_poll ticket)
  · exact d.root.shape_poll ticket

theorem await_spec (running : d.root.shape.Open) (asked : ¬ d.root.Owed) (ticket : Ticket) :
    Session.TurnLawful (d.await ticket).1 ∧
      ∀ other, (d.await ticket).1 = .blocked other → ¬ (d.await ticket).2.root.Owed := by
  have polled : ¬ (d.root.poll ticket).2.Owed := fun owed =>
    asked (Tree.owed_of_act (fun s awaiting => (s.isAwaiting_poll ticket).symm.trans awaiting) _ _
      owed)
  have released : ¬ ((d.root.poll ticket).2.release ticket).Owed := fun owed =>
    polled (Tree.owed_of_act (fun s awaiting => (s.isAwaiting_release ticket).symm.trans awaiting)
      _ _ owed)
  have open_ : ((d.root.poll ticket).2.release ticket).shape.Open := by
    rwa [Tree.shape_release, Tree.shape_poll]
  rw [await_eq]
  split
  · exact ⟨lawful_pull (d := { d with root := _ }) open_ released,
      fun other waits => absurd waits (pull_not_blocked _ other)⟩
  · exact ⟨nofun, fun _ _ => polled⟩

theorem shape_turn (d : Driver (Tree Source)) (awaited : Option Ticket) :
    (d.turn awaited).2.root.shape = d.root.shape := by
  unfold turn
  split
  · exact d.shape_await _
  split
  · rfl
  · rfl
  dsimp only
  split
  · exact (shape_pull _).trans d.root.shape_readiness
  · exact (shape_await _ _).trans d.root.shape_readiness

end Driver

namespace Session
variable {s : Session}

/-- No event changes what there is in the tree. -/
theorem shape_step (s : Session) (event : Event) : (s.step event).root.shape = s.root.shape := by
  cases event with
  | send channel block => exact s.root.shape_send channel block
  | dropSender channel => exact s.root.shape_dropSender channel
  | turn =>
    have same := s.driver.shape_turn s.awaited
    rw [step]
    dsimp only
    split <;> exact same
  | giveUp =>
    rw [step]
    split
    · exact s.root.shape_release _
    · rfl

theorem turn_spec (sound : s.Sound) (careful : ¬ s.Overlooks) :
    TurnLawful (s.driver.turn s.awaited).1 ∧
      ∀ ticket, (s.driver.turn s.awaited).1 = .blocked ticket →
        ¬ (s.driver.turn s.awaited).2.root.Owed := by
  cases awaited : s.awaited with
  | some ticket =>
    exact Driver.await_spec sound.running (sound.asked (by rw [awaited]; exact nofun)) ticket
  | none =>
    rw [Driver.turn]
    split
    next failed =>
      refine ⟨?_, nofun⟩
      intro operator breach activity same
      cases same
      exact s.root.lawful_hasNext operator breach failed
    · exact ⟨nofun, nofun⟩
    next more =>
      have asked : ¬ s.root.readiness.2.Owed := fun owed => careful ⟨awaited, more, owed⟩
      have open_ : s.root.readiness.2.shape.Open := s.root.shape_readiness ▸ sound.running
      dsimp only
      split
      · exact ⟨Driver.lawful_pull (d := { s.driver with root := s.root.readiness.2 }) open_ asked,
          fun other waits => absurd waits (Driver.pull_not_blocked _ other)⟩
      next ticket _ =>
        exact Driver.await_spec (d := { s.driver with root := s.root.readiness.2 }) open_
          asked ticket

theorem Sound.step (sound : s.Sound) {event : Event} (careful : event = .turn → ¬ s.Overlooks) :
    (s.step event).Sound := by
  refine ⟨s.shape_step event ▸ sound.running, ?_⟩
  cases event with
  | send channel block =>
    exact fun waits owed => sound.asked waits (Tree.owed_of_send channel block owed)
  | dropSender channel =>
    exact fun waits owed => sound.asked waits (Tree.owed_of_dropSender channel owed)
  | turn =>
    obtain ⟨_, waits⟩ := turn_spec sound (careful rfl)
    rw [Session.step]
    dsimp only
    split
    next ticket blocked => exact fun _ => waits ticket blocked
    next => exact fun awaits => absurd rfl awaits
  | giveUp =>
    rw [Session.step]
    split
    next ticket _ => exact fun awaits => absurd rfl awaits
    next => exact sound.asked

/-- Checks that overlook nothing let no pull break a rule. -/
theorem Sound.not_breaks (sound : s.Sound) {events : List Event} (careful : s.Careful events) :
    ¬ s.Breaks events := by
  induction events generalizing s with
  | nil => rintro ⟨_, _, _, member⟩; exact absurd member List.not_mem_nil
  | cons event rest ih =>
    obtain ⟨first, later⟩ := careful
    have rest := ih (sound.step first) later
    rintro ⟨operator, breach, activity, member⟩
    cases event with
    | turn =>
      rw [outcomes] at member
      rcases List.mem_cons.1 member with now | later
      · exact (turn_spec sound (first rfl)).1 operator breach activity now.symm
      · exact rest ⟨operator, breach, activity, later⟩
    | send | dropSender | giveUp => exact rest ⟨operator, breach, activity, member⟩

theorem careful_of_sparse (sparse : s.root.shape.Sparse) (events : List Event) :
    s.Careful events := by
  induction events generalizing s with
  | nil => trivial
  | cons event rest ih =>
    refine ⟨?_, ih (by rwa [shape_step])⟩
    rintro _ ⟨_, _, owed⟩
    exact s.root.not_owed_of_sparse sparse owed

theorem sound_start (name : String) {tree : Tree Source} (running : tree.shape.Open) :
    (start name tree).Sound :=
  ⟨running, fun waits => absurd rfl waits⟩

/-- The session once the events have happened. -/
def after (s : Session) (events : List Event) : Session := events.foldl step s

end Session

theorem Driver.close_failed {d : Driver (Tree Source)} {failure : DriverFailure}
    (failed : d.close.1 = some failure) : failure.activity = some .closing := by
  rw [close] at failed
  split at failed
  · contradiction
  dsimp only at failed
  split at failed <;> cases failed
  rfl

namespace Run
variable (r : Run (Tree Source))

theorem finish_none : (r.finish none).1 ≠ .pending ∧
    ∀ failure, (r.finish none).1 = .failed failure → failure.activity = some .closing := by
  rcases closed : r.driver.close with ⟨closing, driver⟩
  simp only [finish, closed]
  cases closing with
  | none => simp
  | some failure =>
    refine ⟨by simp, fun other failed => ?_⟩
    cases failed
    exact Driver.close_failed (congrArg Prod.fst closed)

/-- The turns of a poll: where it leaves the run, and where its failure comes from. -/
structure Played (s : Session) (polled : RunOutcome × Run (Tree Source))
    (events : List Session.Event) : Prop where
  only : ∀ event ∈ events, event = .turn
  pending : polled.1 = .pending → s.after events = ⟨polled.2.driver, polled.2.awaited⟩
  failed : ∀ failure, polled.1 = .failed failure → failure.activity ≠ some .closing →
    .failed failure ∈ s.outcomes events

theorem Played.cons {s t : Session} {polled : RunOutcome × Run (Tree Source)}
    {events : List Session.Event} (stepped : s.step .turn = t) (played : Played t polled events) :
    Played s polled (.turn :: events) where
  only := List.forall_mem_cons.2 ⟨rfl, played.only⟩
  pending waits := by
    rw [Session.after, List.foldl_cons, stepped]
    exact played.pending waits
  failed failure fails pulling := by
    rw [Session.outcomes, stepped]
    exact List.mem_cons_of_mem _ (played.failed failure fails pulling)

/-- A poll of a run is some turns. If it fails, one of them does, or the closing. -/
theorem pollWithin_played (turns : Nat) :
    ∃ events, Played ⟨r.driver, r.awaited⟩ (r.pollWithin turns) events := by
  induction turns generalizing r with
  | zero => exact ⟨[], nofun, fun _ => rfl, by simp [pollWithin]⟩
  | succ turns ih =>
    rcases turned : r.driver.turn r.awaited with ⟨turn, next⟩
    rw [pollWithin, turned]
    cases turn with
    | block block =>
      obtain ⟨events, played⟩ := ih ⟨next, r.blocks ++ [block], none⟩
      exact ⟨_, played.cons (by simp only [Session.step, turned])⟩
    | notReady =>
      obtain ⟨events, played⟩ := ih ⟨next, r.blocks, none⟩
      exact ⟨_, played.cons (by simp only [Session.step, turned])⟩
    | ended =>
      obtain ⟨settled, closing⟩ := finish_none { r with driver := next }
      refine ⟨[.turn], by simp, fun pending => absurd pending settled, ?_⟩
      intro failure failed pulling
      exact absurd (closing failure failed) pulling
    | blocked ticket =>
      refine ⟨[.turn], by simp, fun _ => ?_, by simp⟩
      simp only [Session.after, List.foldl_cons, List.foldl_nil, Session.step, turned]
    | failed failure =>
      refine ⟨[.turn], by simp, by simp [finish], ?_⟩
      intro other failed _
      cases failed
      simp [Session.outcomes, turned]

end Run

namespace Driver

/-- A call for the next block is some turns, and the giving up of a wait. -/
structure Played (s : Session) (called : NextBlock × Driver (Tree Source))
    (events : List Session.Event) : Prop where
  only : ∀ event ∈ events, event = .turn ∨ event = .giveUp
  done : s.after events = ⟨called.2, none⟩
  failed : ∀ failure, called.1 = .failed failure → .failed failure ∈ s.outcomes events

theorem nextBlockWithin_played (turns : Nat) (d : Driver (Tree Source)) :
    ∃ events, Played ⟨d, none⟩ (d.nextBlockWithin turns) events := by
  induction turns generalizing d with
  | zero => exact ⟨[], nofun, rfl, by simp [nextBlockWithin]⟩
  | succ turns ih =>
    rcases turned : d.turn none with ⟨turn, next⟩
    rw [nextBlockWithin, turned]
    cases turn with
    | block block | ended | failed failure =>
      refine ⟨[.turn], by simp, ?_, ?_⟩
      · simp only [Session.after, List.foldl_cons, List.foldl_nil, Session.step, turned]
      · intro failure failed
        cases failed <;> simp [Session.outcomes, turned]
    | notReady =>
      obtain ⟨events, played⟩ := ih next
      have stepped : Session.step ⟨d, none⟩ .turn = ⟨next, none⟩ := by
        simp only [Session.step, turned]
      refine ⟨.turn :: events, List.forall_mem_cons.2 ⟨.inl rfl, played.only⟩, ?_, ?_⟩
      · rw [Session.after, List.foldl_cons, stepped]
        exact played.done
      · intro failure fails
        rw [Session.outcomes, stepped]
        exact List.mem_cons_of_mem _ (played.failed failure fails)
    | blocked ticket =>
      refine ⟨[.turn, .giveUp], by simp, ?_, by simp⟩
      simp only [Session.after, List.foldl_cons, List.foldl_nil, Session.step, turned]
      rfl

end Driver
end WindowFold
