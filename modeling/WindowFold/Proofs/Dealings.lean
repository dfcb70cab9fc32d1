import Mathlib
import WindowFold.Driver

/-! The calls that a driver makes on its root in a turn, in closing it and in a run. They
tell all that is counted and handed out meanwhile, and how the run ends. -/
namespace WindowFold

/-- A call on an operator, with what comes of it. -/
inductive Dealing where
  | hasNext (told : Except Failure Bool)
  | readiness (told : Readiness)
  | next (answer : Except Failure Answer)
  | close (outcome : Except Failure Unit)

namespace Dealing

def block? : Dealing → Option Block
  | next (.ok (.block block)) => some block
  | _ => none

/-- The failure as a driver tells it. -/
def failure? : Dealing → Option DriverFailure
  | hasNext (.error e) => some ⟨e, none⟩
  | next (.error e) => some ⟨e, some .pulling⟩
  | close (.error e) => some ⟨e, some .closing⟩
  | _ => none

def isNotReady : Dealing → Bool
  | next (.ok .notReady) => true
  | _ => false

def isClose : Dealing → Bool
  | close _ => true
  | _ => false

/-- An operator can keep the call in mind. -/
def isKept : Dealing → Bool
  | hasNext _ => false
  | _ => true

end Dealing

def Turn.block? : Turn → Option Block
  | block b => some b
  | _ => none

def Turn.failure? : Turn → Option DriverFailure
  | failed failure => some failure
  | _ => none

namespace Driver
variable {σ : Type}

/-- Something below the root changes. -/
def changed (d : Driver σ) (change : σ → σ) : Driver σ := { d with root := change d.root }

/-- The counts agree with the dealings in between. -/
structure Books (d e : Driver σ) (made : List Dealing) : Prop where
  rows : e.rows = d.rows + ((made.filterMap Dealing.block?).map (·.rowCount)).sum
  notReady : e.notReadyAnswers = d.notReadyAnswers + made.countP Dealing.isNotReady

/-- What a turn comes to is what the root has answered in it. -/
structure Accords (d : Driver σ) (turned : Turn × Driver σ) (made : List Dealing) : Prop where
  closed : turned.2.closed = d.closed
  books : d.Books turned.2 made
  block : made.filterMap Dealing.block? = turned.1.block?.toList
  failure : made.findSome? Dealing.failure? = turned.1.failure?
  keepsOpen : made.countP Dealing.isClose = 0

variable {d e f : Driver σ} {made more : List Dealing}

theorem Books.trans (first : d.Books e made) (later : e.Books f more) :
    d.Books f (made ++ more) where
  rows := by
    rw [later.rows, first.rows, List.filterMap_append, List.map_append, List.sum_append,
      Nat.add_assoc]
  notReady := by rw [later.notReady, first.notReady, List.countP_append, Nat.add_assoc]

/-- A call that does not fail and is neither a pull nor a close makes no difference. -/
theorem Accords.quiet {turned : Turn × Driver σ} (root : σ) {x : Dealing}
    (rest : Accords { d with root := root } turned made) (block : x.block? = none)
    (failure : x.failure? = none) (answers : x.isNotReady = false) (keepsOpen : x.isClose = false) :
    d.Accords turned (x :: made) where
  closed := rest.closed
  books := by
    refine ⟨rest.books.rows.trans ?_, rest.books.notReady.trans ?_⟩
    · rw [List.filterMap_cons_none block]
    · rw [List.countP_cons_of_neg (by simp [answers])]
  block := by rw [List.filterMap_cons_none block, rest.block]
  failure := by rw [List.findSome?_cons, failure, rest.failure]
  keepsOpen := by rw [List.countP_cons_of_neg (by simp [keepsOpen]), rest.keepsOpen]

variable [Operator σ]

def pullDealings (d : Driver σ) : List Dealing := [.next (Operator.next d.root).1]

def awaitDealings (d : Driver σ) (ticket : Ticket) : List Dealing :=
  let (complete, root) := Operator.poll ticket d.root
  if complete then pullDealings { d with root := Operator.release ticket root } else []

/-- The calls of one turn. -/
def turnDealings (d : Driver σ) : Option Ticket → List Dealing
  | some ticket => d.awaitDealings ticket
  | none =>
    .hasNext (Operator.hasNext d.root) ::
      match Operator.hasNext d.root with
      | .ok true =>
        .readiness (Operator.readiness d.root).1 ::
          match Operator.readiness d.root with
          | (.ready, root) => pullDealings { d with root := root }
          | (.waiting ticket, root) => awaitDealings { d with root := root } ticket
      | _ => []

def closeDealings (d : Driver σ) : List Dealing :=
  if d.closed then [] else [.close (Operator.close d.root).1]

theorem accords_pull (d : Driver σ) : d.Accords d.pull d.pullDealings := by
  rw [pull, pullDealings]
  rcases Operator.next d.root with ⟨e | block | _ | _, root⟩
  all_goals exact ⟨rfl, ⟨rfl, rfl⟩, rfl, rfl, rfl⟩

theorem accords_await (d : Driver σ) (ticket : Ticket) :
    d.Accords (d.await ticket) (d.awaitDealings ticket) := by
  rw [await, awaitDealings]
  rcases Operator.poll ticket d.root with ⟨_ | _, root⟩
  · exact ⟨rfl, ⟨rfl, rfl⟩, rfl, rfl, rfl⟩
  · obtain ⟨closed, books, block, failure, keepsOpen⟩ :=
      accords_pull { d with root := Operator.release ticket root }
    exact ⟨closed, ⟨books.rows, books.notReady⟩, block, failure, keepsOpen⟩

theorem accords_turn (d : Driver σ) (awaited : Option Ticket) :
    d.Accords (d.turn awaited) (d.turnDealings awaited) := by
  cases awaited with
  | some ticket => exact d.accords_await ticket
  | none =>
    rw [turn, turnDealings]
    rcases Operator.hasNext d.root with e | _ | _
    · exact ⟨rfl, ⟨rfl, rfl⟩, rfl, rfl, rfl⟩
    · exact ⟨rfl, ⟨rfl, rfl⟩, rfl, rfl, rfl⟩
    rcases Operator.readiness d.root with ⟨_ | ticket, root⟩
    · have pulled := accords_pull { d with root := root }
      exact (pulled.quiet (d := d) root rfl rfl rfl rfl).quiet d.root rfl rfl rfl rfl
    · have awaited := accords_await { d with root := root } ticket
      exact (awaited.quiet (d := d) root rfl rfl rfl rfl).quiet d.root rfl rfl rfl rfl

theorem close_books (d : Driver σ) : d.Books d.close.2 d.closeDealings ∧
    d.closeDealings.filterMap Dealing.block? = [] ∧
    d.closeDealings.findSome? Dealing.failure? = d.close.1 := by
  rw [close, closeDealings]
  split
  · exact ⟨⟨rfl, rfl⟩, rfl, rfl⟩
  · rcases Operator.close d.root with ⟨e | _, root⟩ <;> exact ⟨⟨rfl, rfl⟩, rfl, rfl⟩

theorem close_closes (d : Driver σ) : d.close.2.closed = true ∧
    d.closeDealings.countP Dealing.isClose = if d.closed then 0 else 1 := by
  rw [close, closeDealings]
  cases closed : d.closed with
  | true => exact ⟨closed, rfl⟩
  | false => rcases Operator.close d.root with ⟨e | _, root⟩ <;> exact ⟨rfl, rfl⟩

end Driver

namespace Run
variable {σ : Type}

/-- How a run ends that has made these calls and handed out these blocks. -/
def verdict (made : List Dealing) (blocks : List Block) : RunOutcome :=
  match made.findSome? Dealing.failure? with
  | some failure => .failed failure
  | none => .finished blocks

/-- What a part of a run comes to: it goes on with no failure and nothing closed, or it has
come to its end. -/
structure Polled (r : Run σ) (polled : RunOutcome × Run σ) (made : List Dealing) : Prop where
  books : r.driver.Books polled.2.driver made
  blocks : polled.2.blocks = r.blocks ++ made.filterMap Dealing.block?
  goesOn : polled.1 = .pending → made.findSome? Dealing.failure? = none ∧
    made.countP Dealing.isClose = 0 ∧ polled.2.driver.closed = r.driver.closed
  ends : polled.1 ≠ .pending → polled.1 = verdict made polled.2.blocks ∧
    ∃ before last, made = before ++ last ∧ before.countP Dealing.isClose = 0 ∧
      if r.driver.closed then last = [] else ∃ outcome, last = [.close outcome]

variable {r x : Run σ} {polled : RunOutcome × Run σ} {made more : List Dealing}

theorem Polled.idle (r : Run σ) : r.Polled (.pending, r) [] where
  books := ⟨rfl, rfl⟩
  blocks := (List.append_nil _).symm
  goesOn _ := ⟨rfl, rfl, rfl⟩
  ends going := absurd rfl going

theorem Polled.trans (first : r.Polled (.pending, x) made) (later : x.Polled polled more) :
    r.Polled polled (made ++ more) := by
  obtain ⟨unfailed, unclosed, still⟩ := first.goesOn rfl
  have failures : (made ++ more).findSome? Dealing.failure? = more.findSome? Dealing.failure? := by
    rw [List.findSome?_append, unfailed, Option.none_or]
  refine ⟨first.books.trans later.books, ?_, fun pending => ?_, fun ended => ?_⟩
  · rw [later.blocks, first.blocks, List.filterMap_append, List.append_assoc]
  · obtain ⟨none, few, same⟩ := later.goesOn pending
    exact ⟨failures.trans none, by rw [List.countP_append, unclosed, few], same.trans still⟩
  · obtain ⟨outcome, before, last, rfl, few, closes⟩ := later.ends ended
    refine ⟨?_, made ++ before, last, (List.append_assoc _ _ _).symm, ?_, ?_⟩
    · rw [outcome, verdict, verdict, failures]
    · rw [List.countP_append, unclosed, few]
    · rwa [← still]

theorem Polled.closes_once (part : r.Polled polled made) (ended : polled.1 ≠ .pending) :
    made.countP Dealing.isClose = if r.driver.closed then 0 else 1 := by
  obtain ⟨_, before, last, rfl, few, closes⟩ := part.ends ended
  rw [List.countP_append, few, Nat.zero_add]
  cases closed : r.driver.closed with
  | true =>
    rw [if_pos closed] at closes
    rw [closes]
    rfl
  | false =>
    rw [if_neg (by simp [closed])] at closes
    obtain ⟨outcome, rfl⟩ := closes
    rfl

/-- A turn after which the run goes on. -/
theorem polled_turn {d : Driver σ} {turn : Turn} {blocks : List Block} {awaited : Option Ticket}
    (turned : r.driver.Accords (turn, d) made) (goesOn : turn.failure? = none)
    (all : blocks = r.blocks ++ turn.block?.toList) :
    r.Polled (.pending, ⟨d, blocks, awaited⟩) made where
  books := turned.books
  blocks := by rw [turned.block, ← all]
  goesOn _ := ⟨turned.failure.trans goesOn, turned.keepsOpen, turned.closed⟩
  ends going := absurd rfl going

variable [Operator σ]

/-- The last turn of a run, and the close that follows it. -/
theorem polled_finish {d : Driver σ} {turn : Turn} (turned : r.driver.Accords (turn, d) made)
    (none : turn.block? = none) :
    r.Polled (Run.finish { r with driver := d } turn.failure?) (made ++ d.closeDealings) := by
  obtain ⟨books, nothing, failure⟩ := d.close_books
  have failures : (made ++ d.closeDealings).findSome? Dealing.failure? =
      turn.failure?.or d.close.1 := by rw [List.findSome?_append, turned.failure, failure]
  have after : Run.finish { r with driver := d } turn.failure? =
      (verdict (made ++ d.closeDealings) r.blocks, ⟨d.close.2, r.blocks, Option.none⟩) := by
    rw [verdict, failures, finish]
    rcases d.close with ⟨_ | e, closed⟩ <;> cases turn.failure? <;> rfl
  rw [after]
  refine ⟨turned.books.trans books, ?_, fun pending => ?_, fun _ => ?_⟩
  · rw [List.filterMap_append, turned.block, none, nothing]
    exact (List.append_nil _).symm
  · rw [verdict] at pending
    split at pending <;> cases pending
  · refine ⟨rfl, made, _, rfl, turned.keepsOpen, ?_⟩
    rw [← turned.closed, Driver.closeDealings]
    split
    · rfl
    · exact ⟨_, rfl⟩

/-- The calls of a run that is polled for some turns. -/
def pollDealings : (turns : Nat) → Run σ → List Dealing
  | 0, _ => []
  | turns + 1, r =>
    r.driver.turnDealings r.awaited ++
      match r.driver.turn r.awaited with
      | (.block block, d) => pollDealings turns ⟨d, r.blocks ++ [block], none⟩
      | (.notReady, d) => pollDealings turns ⟨d, r.blocks, none⟩
      | (.blocked _, _) => []
      | (.ended, d) | (.failed _, d) => d.closeDealings

theorem polled_pollWithin (turns : Nat) (r : Run σ) :
    r.Polled (r.pollWithin turns) (r.pollDealings turns) := by
  induction turns generalizing r with
  | zero => exact .idle r
  | succ turns ih =>
    have turned := r.driver.accords_turn r.awaited
    rw [pollWithin, pollDealings]
    generalize r.driver.turn r.awaited = taken at turned ⊢
    obtain ⟨block | _ | _ | ticket | failure, d⟩ := taken
    · exact (polled_turn turned rfl rfl).trans (ih _)
    · exact (polled_turn turned rfl (List.append_nil _).symm).trans (ih _)
    · exact polled_finish turned rfl
    · rw [List.append_nil]
      exact polled_turn turned rfl (List.append_nil _).symm
    · exact polled_finish turned rfl

/-- Polls a run until it has come to its end, each time for some turns. Something may have
changed below the root before. -/
def proceed : Run σ → List ((σ → σ) × Nat) → RunOutcome × Run σ
  | r, [] => (.pending, r)
  | r, (change, turns) :: rest =>
    match pollWithin turns { r with driver := r.driver.changed change } with
    | (.pending, r) => proceed r rest
    | ended => ended

/-- All calls of a run. -/
def dealings : Run σ → List ((σ → σ) × Nat) → List Dealing
  | _, [] => []
  | r, (change, turns) :: rest =>
    let r := { r with driver := r.driver.changed change }
    r.pollDealings turns ++
      match r.pollWithin turns with
      | (.pending, r) => dealings r rest
      | _ => []

theorem polled_proceed (r : Run σ) (polls : List ((σ → σ) × Nat)) :
    r.Polled (r.proceed polls) (r.dealings polls) := by
  induction polls generalizing r with
  | nil => exact .idle r
  | cons poll rest ih =>
    obtain ⟨change, turns⟩ := poll
    have first := polled_pollWithin turns { r with driver := r.driver.changed change }
    have first : r.Polled _ _ := ⟨⟨first.books.rows, first.books.notReady⟩, first.blocks,
      first.goesOn, first.ends⟩
    rw [proceed, dealings]
    generalize pollWithin turns { r with driver := r.driver.changed change } = polled at first ⊢
    obtain ⟨all | failure | _, x⟩ := polled
    · rwa [List.append_nil]
    · rwa [List.append_nil]
    · exact first.trans (ih x)

end Run

/-- An operator that keeps the calls on it in mind. -/
structure Logged (σ : Type) where
  operator : σ
  dealings : List Dealing

namespace Logged
variable {σ : Type}

def start (s : σ) : Logged σ := ⟨s, []⟩

/-- A change below is no call. -/
def lift (change : σ → σ) (l : Logged σ) : Logged σ := { l with operator := change l.operator }

/-- The operator has kept these calls in mind, as far as it can. -/
def Keeps (l k : Logged σ) (made : List Dealing) : Prop :=
  k.dealings = l.dealings ++ made.filter Dealing.isKept

theorem Keeps.trans {l k j : Logged σ} {made more : List Dealing} (first : l.Keeps k made)
    (later : k.Keeps j more) : l.Keeps j (made ++ more) := by
  rw [Keeps, later, first, List.filter_append, List.append_assoc]

variable [Operator σ]

instance : Operator (Logged σ) where
  schema l := Operator.schema l.operator
  hasNext l := Operator.hasNext l.operator
  readiness l :=
    let (told, s) := Operator.readiness l.operator
    (told, ⟨s, l.dealings ++ [.readiness told]⟩)
  next l :=
    let (answer, s) := Operator.next l.operator
    (answer, ⟨s, l.dealings ++ [.next answer]⟩)
  close l :=
    let (outcome, s) := Operator.close l.operator
    (outcome, ⟨s, l.dealings ++ [.close outcome]⟩)
  poll ticket l := (Operator.poll ticket l.operator).map id fun s => { l with operator := s }
  isComplete ticket l := Operator.isComplete ticket l.operator
  release ticket := lift (Operator.release ticket)
  work l := Operator.work l.operator

theorem keeps_pull (d : Driver (Logged σ)) : d.root.Keeps d.pull.2.root d.pullDealings := by
  have called : Operator.next d.root = ((Operator.next d.root.operator).1,
      ⟨(Operator.next d.root.operator).2,
        d.root.dealings ++ [.next (Operator.next d.root.operator).1]⟩) := rfl
  rw [Driver.pull, Driver.pullDealings, called]
  rcases (Operator.next d.root.operator).1 with e | block | _ | _ <;> rfl

theorem keeps_await (d : Driver (Logged σ)) (ticket : Ticket) :
    d.root.Keeps (d.await ticket).2.root (d.awaitDealings ticket) := by
  have polled : Operator.poll ticket d.root =
      (Operator.poll ticket d.root.operator).map id fun s => ⟨s, d.root.dealings⟩ := rfl
  rw [Driver.await, Driver.awaitDealings, polled]
  rcases Operator.poll ticket d.root.operator with ⟨_ | _, s⟩
  · exact (List.append_nil _).symm
  · exact keeps_pull { d with root := Operator.release ticket ⟨s, d.root.dealings⟩ }

theorem keeps_turn (d : Driver (Logged σ)) (awaited : Option Ticket) :
    d.root.Keeps (d.turn awaited).2.root (d.turnDealings awaited) := by
  cases awaited with
  | some ticket => exact keeps_await d ticket
  | none =>
    have asked : Operator.readiness d.root = ((Operator.readiness d.root.operator).1,
        ⟨(Operator.readiness d.root.operator).2,
          d.root.dealings ++ [.readiness (Operator.readiness d.root.operator).1]⟩) := rfl
    have told : Operator.hasNext d.root = Operator.hasNext d.root.operator := rfl
    rw [Driver.turn, Driver.turnDealings, told, asked]
    rcases Operator.hasNext d.root.operator with e | _ | _
    · exact (List.append_nil _).symm
    · exact (List.append_nil _).symm
    rcases Operator.readiness d.root.operator with ⟨answer, s⟩
    have before : d.root.Keeps ⟨s, d.root.dealings ++ [.readiness answer]⟩
        [.hasNext (.ok true), .readiness answer] := rfl
    cases answer with
    | ready => exact before.trans (keeps_pull { d with root := ⟨s, _⟩ })
    | waiting ticket => exact before.trans (keeps_await { d with root := ⟨s, _⟩ } ticket)

theorem keeps_close (d : Driver (Logged σ)) : d.root.Keeps d.close.2.root d.closeDealings := by
  rw [Driver.close, Driver.closeDealings]
  split
  · exact (List.append_nil _).symm
  · have called : Operator.close d.root = ((Operator.close d.root.operator).1,
        ⟨(Operator.close d.root.operator).2,
          d.root.dealings ++ [.close (Operator.close d.root.operator).1]⟩) := rfl
    rw [called]
    rcases (Operator.close d.root.operator).1 with e | _ <;> rfl

theorem keeps_finish (r : Run (Logged σ)) (failure : Option DriverFailure) :
    r.driver.root.Keeps (r.finish failure).2.driver.root r.driver.closeDealings := by
  have closes := keeps_close r.driver
  rw [Run.finish]
  generalize r.driver.close = closed at closes ⊢
  obtain ⟨_ | e, d⟩ := closed <;> cases failure <;> exact closes

theorem keeps_pollWithin (turns : Nat) (r : Run (Logged σ)) :
    r.driver.root.Keeps (r.pollWithin turns).2.driver.root (r.pollDealings turns) := by
  induction turns generalizing r with
  | zero => exact (List.append_nil _).symm
  | succ turns ih =>
    have turned := keeps_turn r.driver r.awaited
    rw [Run.pollWithin, Run.pollDealings]
    generalize r.driver.turn r.awaited = taken at turned ⊢
    obtain ⟨block | _ | _ | ticket | failure, d⟩ := taken
    · exact turned.trans (ih ⟨d, r.blocks ++ [block], none⟩)
    · exact turned.trans (ih ⟨d, r.blocks, none⟩)
    · exact turned.trans (keeps_finish { r with driver := d } none)
    · rwa [List.append_nil]
    · exact turned.trans (keeps_finish { r with driver := d } (some failure))

theorem keeps_proceed (r : Run (Logged σ)) (polls : List ((σ → σ) × Nat)) :
    r.driver.root.Keeps (r.proceed (polls.map (Prod.map lift id))).2.driver.root
      (r.dealings (polls.map (Prod.map lift id))) := by
  induction polls generalizing r with
  | nil => exact (List.append_nil _).symm
  | cons poll rest ih =>
    obtain ⟨change, turns⟩ := poll
    have first := keeps_pollWithin turns { r with driver := r.driver.changed (lift change) }
    have first : r.driver.root.Keeps _ _ := first
    rw [List.map_cons, Prod.map, Run.proceed, Run.dealings]
    dsimp only [id]
    generalize Run.pollWithin turns { r with driver := r.driver.changed (lift change) } = polled
      at first ⊢
    obtain ⟨all | failure | _, x⟩ := polled
    · rwa [List.append_nil]
    · rwa [List.append_nil]
    · exact first.trans (ih x)

end Logged

end WindowFold
