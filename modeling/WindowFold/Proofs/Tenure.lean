import WindowFold.Operator.Script
import WindowFold.Proofs.Dealings

/-! A driver over its whole life: whatever is asked of it before it is run, its calls on the
root tell what it has counted and handed out, that it closes the root once, and how its run
ends. -/
namespace WindowFold

/-- A driver from its creation on, until it is run: with the wait that it is in, the blocks
that it has handed out and the calls that it has made. -/
structure Tenure (σ : Type) where
  driver : Driver σ
  awaited : Option Ticket
  handed : List Block
  dealings : List Dealing

/-- What befalls a driver. The next block is asked for turn by turn, and a wait for it may be
given up; nothing else can be asked of the driver before. -/
inductive Tenure.Event (σ : Type) where
  | turn
  | giveUp
  | close
  | changed (change : σ → σ)

def Turn.awaited? : Turn → Option Ticket
  | blocked ticket => some ticket
  | _ => none

namespace Tenure
variable {σ : Type}

def start (name : String) (root : σ) : Tenure σ := ⟨.create name root, none, [], []⟩

/-- The driver has kept count of its calls since its creation. -/
structure Kept (d : Driver σ) (t : Tenure σ) : Prop where
  books : d.Books t.driver t.dealings
  handed : t.handed = t.dealings.filterMap Dealing.block?
  closes : t.dealings.countP Dealing.isClose = if t.driver.closed then 1 else 0

theorem kept_start (name : String) (root : σ) :
    Kept (.create name root) (start name root) := ⟨⟨rfl, rfl⟩, rfl, rfl⟩

variable [Operator σ]

def giveUp (t : Tenure σ) : Tenure σ :=
  match t.awaited with
  | none => t
  | some ticket =>
    { t with driver := t.driver.changed (Operator.release ticket), awaited := none }

def turn (t : Tenure σ) : Tenure σ where
  driver := (t.driver.turn t.awaited).2
  awaited := (t.driver.turn t.awaited).1.awaited?
  handed := t.handed ++ (t.driver.turn t.awaited).1.block?.toList
  dealings := t.dealings ++ t.driver.turnDealings t.awaited

def close (t : Tenure σ) : Tenure σ :=
  { t with driver := t.driver.close.2, dealings := t.dealings ++ t.driver.closeDealings }

def step (t : Tenure σ) : Event σ → Tenure σ
  | .turn => t.turn
  | .giveUp => t.giveUp
  | .close => t.giveUp.close
  | .changed change => { t with driver := t.driver.changed change }

def after (t : Tenure σ) (events : List (Event σ)) : Tenure σ := events.foldl step t

variable {d : Driver σ} {t : Tenure σ}

/-- A wait that is given up is no call, and nothing is counted. -/
theorem giveUp_frame (t : Tenure σ) :
    t.giveUp.dealings = t.dealings ∧ t.giveUp.handed = t.handed ∧
      t.giveUp.driver.closed = t.driver.closed := by
  rw [giveUp]
  split <;> exact ⟨rfl, rfl, rfl⟩

theorem Kept.giveUp (kept : t.Kept d) : t.giveUp.Kept d := by
  rw [Tenure.giveUp]
  split
  · exact kept
  · exact ⟨⟨kept.books.rows, kept.books.notReady⟩, kept.handed, kept.closes⟩

theorem Kept.turn (kept : t.Kept d) : t.turn.Kept d := by
  have turned := t.driver.accords_turn t.awaited
  refine ⟨kept.books.trans turned.books, ?_, ?_⟩
  · rw [Tenure.turn, List.filterMap_append, turned.block, kept.handed]
  · rw [Tenure.turn, List.countP_append, kept.closes, turned.keepsOpen, turned.closed]
    rfl

theorem Kept.close (kept : t.Kept d) : t.close.Kept d := by
  obtain ⟨books, nothing, _⟩ := t.driver.close_books
  refine ⟨kept.books.trans books, ?_, ?_⟩
  · rw [Tenure.close, List.filterMap_append, nothing, kept.handed, List.append_nil]
  · obtain ⟨closed, once⟩ := t.driver.close_closes
    rw [Tenure.close, List.countP_append, kept.closes, once, closed]
    split <;> rfl

theorem Kept.step (kept : t.Kept d) (event : Event σ) : (t.step event).Kept d := by
  cases event with
  | turn => exact kept.turn
  | giveUp => exact kept.giveUp
  | close => exact kept.giveUp.close
  | changed => exact ⟨⟨kept.books.rows, kept.books.notReady⟩, kept.handed, kept.closes⟩

theorem Kept.after (kept : t.Kept d) (events : List (Event σ)) : (t.after events).Kept d := by
  induction events generalizing t with
  | nil => exact kept
  | cons event rest ih => exact ih (kept.step event)

theorem nextBlockWithin_after (turns : Nat) (asks : t.awaited = none) :
    ∃ events, (t.after events).driver = (t.driver.nextBlockWithin turns).2 ∧
      (t.after events).awaited = none ∧
      (t.after events).handed = t.handed ++ match (t.driver.nextBlockWithin turns).1 with
        | .block block => [block]
        | _ => [] := by
  induction turns generalizing t with
  | zero => exact ⟨[], rfl, asks, (List.append_nil _).symm⟩
  | succ turns ih =>
    have driver : t.turn.driver = (t.driver.turn none).2 := by rw [turn, asks]
    have awaited : t.turn.awaited = (t.driver.turn none).1.awaited? := by rw [turn, asks]
    have handed : t.turn.handed = t.handed ++ (t.driver.turn none).1.block?.toList := by
      rw [turn, asks]
    rw [Driver.nextBlockWithin]
    generalize t.driver.turn none = taken at driver awaited handed ⊢
    obtain ⟨block | _ | _ | ticket | failure, d⟩ := taken
    · exact ⟨[.turn], driver, awaited, handed⟩
    · obtain ⟨events, last, idle, given⟩ := ih awaited
      rw [driver] at last given
      rw [handed, show Turn.notReady.block?.toList = [] from rfl, List.append_nil] at given
      exact ⟨.turn :: events, last, idle, given⟩
    · exact ⟨[.turn], driver, awaited, handed⟩
    · have gives : t.turn.giveUp = { t.turn with
          driver := t.turn.driver.changed (Operator.release ticket), awaited := none } := by
        simp only [giveUp, awaited, Turn.awaited?]
      have gives : t.after [.turn, .giveUp] = _ := gives
      refine ⟨[.turn, .giveUp], ?_, ?_, ?_⟩ <;> rw [gives]
      · rw [driver]
        rfl
      · exact handed
    · exact ⟨[.turn], driver, awaited, handed⟩

def Event.lift : Event σ → Event (Logged σ)
  | .turn => .turn
  | .giveUp => .giveUp
  | .close => .close
  | .changed change => .changed (Logged.lift change)

variable {t : Tenure (Logged σ)} {l : Logged σ} {made : List Dealing}

omit [Operator σ] in
theorem logged_append (same : t.driver.root.dealings = t.dealings.filter Dealing.isKept)
    (keeps : t.driver.root.Keeps l made) :
    l.dealings = (t.dealings ++ made).filter Dealing.isKept := by
  rw [keeps, same, List.filter_append]

theorem logged_giveUp (same : t.driver.root.dealings = t.dealings.filter Dealing.isKept) :
    t.giveUp.driver.root.dealings = t.giveUp.dealings.filter Dealing.isKept := by
  rw [giveUp]
  split <;> exact same

/-- The root keeps just the calls in mind that are told of the driver. -/
theorem logged_after (same : t.driver.root.dealings = t.dealings.filter Dealing.isKept)
    (events : List (Event σ)) :
    (t.after (events.map Event.lift)).driver.root.dealings =
      (t.after (events.map Event.lift)).dealings.filter Dealing.isKept := by
  induction events generalizing t with
  | nil => exact same
  | cons event rest ih =>
    refine ih (t := t.step event.lift) ?_
    cases event with
    | turn => exact logged_append same (Logged.keeps_turn t.driver t.awaited)
    | giveUp => exact logged_giveUp same
    | close => exact logged_append (logged_giveUp same) (Logged.keeps_close t.giveUp.driver)
    | changed change => exact same

end Tenure

/-- The rows of some blocks. -/
def Block.rowsOf (blocks : List Block) : Nat := (blocks.map (·.rowCount)).sum

/-- What a driver has counted and handed out is told by its calls on the root, whatever they
answer and whatever is asked of it. Over its life a run that ends closes the root once, with
its last call unless the root was closed before. It ends with its first failure, of which
that of closing can only be the last; else it has handed out all blocks that it was answered.
To go for the next block is to take turns and, where it has to wait, to give up. -/
theorem Run.proceed_ends :
    (∀ {σ : Type} [Operator σ] (name : String) (root : σ) (events : List (Tenure.Event σ))
        (polls : List ((σ → σ) × Nat)),
      let t := (Tenure.start name root).after events
      let run := Run.start t.giveUp.driver
      let made := run.dealings polls
      let after := (run.proceed polls).2
      t.driver.rows = Block.rowsOf t.handed ∧
      t.driver.notReadyAnswers = t.dealings.countP Dealing.isNotReady ∧
      t.handed = t.dealings.filterMap Dealing.block? ∧
      after.driver.rows = Block.rowsOf (t.handed ++ after.blocks) ∧
      after.driver.notReadyAnswers = (t.dealings ++ made).countP Dealing.isNotReady ∧
      after.blocks = made.filterMap Dealing.block? ∧
      ((run.proceed polls).1 ≠ .pending →
        (t.dealings ++ made).countP Dealing.isClose = 1 ∧
        (t.driver.closed = false → ∃ before outcome, made = before ++ [.close outcome]) ∧
        (run.proceed polls).1 = verdict made after.blocks)) ∧
    (∀ {σ : Type} [Operator σ] (name : String) (root : σ) (events : List (Tenure.Event σ))
        (polls : List ((σ → σ) × Nat)),
      let t := (Tenure.start name (Logged.start root)).after (events.map Tenure.Event.lift)
      let run := Run.start t.giveUp.driver
      let polls := polls.map (Prod.map Logged.lift id)
      (run.proceed polls).2.driver.root.dealings =
        (t.dealings ++ run.dealings polls).filter Dealing.isKept) ∧
    ∀ {σ : Type} [Operator σ] (t : Tenure σ) (turns : Nat), t.awaited = none →
      ∃ events, (t.after events).driver = (t.driver.nextBlockWithin turns).2 ∧
        (t.after events).awaited = none ∧
        (t.after events).handed = t.handed ++ match (t.driver.nextBlockWithin turns).1 with
          | .block block => [block]
          | _ => [] := by
  refine ⟨?_, ?_, fun t turns asks => t.nextBlockWithin_after turns asks⟩
  · intro σ _ name root events polls t run made after
    have kept : t.Kept _ := (Tenure.kept_start name root).after events
    obtain ⟨same, _, closed⟩ := t.giveUp_frame
    have polled := run.polled_proceed polls
    have all := kept.giveUp.books.trans polled.books
    rw [same] at all
    have blocks : after.blocks = made.filterMap Dealing.block? := polled.blocks
    refine ⟨?_, ?_, kept.handed, ?_, ?_, blocks, fun ended => ?_⟩
    · rw [kept.books.rows, ← kept.handed]
      exact Nat.zero_add _
    · exact kept.books.notReady.trans (Nat.zero_add _)
    · rw [blocks, kept.handed, ← List.filterMap_append]
      exact all.rows.trans (Nat.zero_add _)
    · exact all.notReady.trans (Nat.zero_add _)
    refine ⟨?_, fun opened => ?_, (polled.ends ended).1⟩
    · have same : run.driver.closed = t.driver.closed := closed
      rw [List.countP_append, kept.closes, polled.closes_once ended, same]
      cases t.driver.closed <;> rfl
    · obtain ⟨_, before, last, split, _, closes⟩ := polled.ends ended
      rw [if_neg (by simp [run, start, closed, opened])] at closes
      obtain ⟨outcome, rfl⟩ := closes
      exact ⟨before, outcome, split⟩
  · intro σ _ name root events polls t run polls
    have same := Tenure.logged_after (t := .start name (Logged.start root)) rfl events
    rw [← t.giveUp_frame.1]
    exact Tenure.logged_append (Tenure.logged_giveUp same) (Logged.keeps_proceed run _)

/-- It pauses between its blocks, and cannot be pulled to the end nor closed. -/
def broken : Script :=
  let block : Block := ⟨"time", false, [3], [], nofun⟩
  .create "broken" block.schema
    [.answer (.block block), .answer .notReady, .answer (.block block), .failure "torn"]
    (some (.unsupported (.other "stuck")))

/-- One block is handed out before the run and one in it, and the failure to close is not
the one that is told. -/
theorem Run.proceed_ends_broken :
    let t := (Tenure.start "driver" broken).after [.turn]
    let run := Run.start t.giveUp.driver
    let made := run.dealings [(id, 1), (id, 5)]
    (run.proceed [(id, 1), (id, 5)]).1 ≠ .pending ∧ t.driver.closed = false ∧
      (t.dealings ++ made).countP Dealing.isClose = 1 ∧
      (∃ before outcome, made = before ++ [.close outcome]) ∧
      made.findSome? Dealing.failure? =
        some ⟨.unsupported (.other "torn"), some .pulling⟩ ∧
      (run.proceed [(id, 1), (id, 5)]).1 =
        .failed ⟨.unsupported (.other "torn"), some .pulling⟩ := by
  intro t run made
  obtain ⟨_, _, _, _, _, _, ends⟩ := proceed_ends.1 "driver" broken [.turn] [(id, 1), (id, 5)]
  have ended : (run.proceed [(id, 1), (id, 5)]).1 ≠ .pending := by decide
  have opened : t.driver.closed = false := by decide
  have torn : made.findSome? Dealing.failure? =
      some ⟨.unsupported (.other "torn"), some .pulling⟩ := by decide
  obtain ⟨once, last, outcome⟩ := ends ended
  refine ⟨ended, opened, once, last opened, torn, outcome.trans ?_⟩
  change verdict made _ = _
  rw [verdict, torn]

end WindowFold
