import WindowFold.Operator

/-! Drives an operator: waits for its readiness before every pull, counts what
it answers, and closes it at the end. -/
namespace WindowFold

structure Driver (σ : Type) where
  name : String
  root : σ
  /-- Rows handed out. -/
  rows : Nat
  notReadyAnswers : Nat
  closed : Bool

/-- What a driver was doing when it failed. -/
inductive Activity where
  | pulling
  | closing
  deriving DecidableEq

structure DriverFailure where
  failure : Failure
  activity : Option Activity
  deriving DecidableEq

/-- What is said of a failure beside its own message. -/
def DriverFailure.context? (failure : DriverFailure) (driver : String) : Option String :=
  failure.activity.map fun
    | .pulling => "driver " ++ driver ++ " failed to pull"
    | .closing => "driver " ++ driver ++ " failed to close its operator tree"

/-- One round of asking, waiting and pulling. -/
inductive Turn where
  | block (block : Block)
  | notReady
  | ended
  /-- The root waits for a receive. -/
  | blocked (ticket : Ticket)
  | failed (failure : DriverFailure)
  deriving DecidableEq

namespace Driver
variable {σ : Type} [Operator σ]

def create (name : String) (root : σ) : Driver σ := ⟨name, root, 0, 0, false⟩

def pull (d : Driver σ) : Turn × Driver σ :=
  let (outcome, root) := Operator.next d.root
  let d := { d with root := root }
  match outcome with
  | .error e => (.failed ⟨e, some .pulling⟩, d)
  | .ok (.block block) => (.block block, { d with rows := d.rows + block.rowCount })
  | .ok .notReady => (.notReady, { d with notReadyAnswers := d.notReadyAnswers + 1 })
  | .ok .endOfStream => (.ended, d)

/-- Pulls once the receive is complete. -/
def await (d : Driver σ) (ticket : Ticket) : Turn × Driver σ :=
  let (complete, root) := Operator.poll ticket d.root
  if complete then { d with root := Operator.release ticket root }.pull
  else (.blocked ticket, { d with root := root })

/-- Goes on waiting where a turn before had to, or asks anew. -/
def turn (d : Driver σ) (awaited : Option Ticket) : Turn × Driver σ :=
  match awaited with
  | some ticket => d.await ticket
  | none =>
    match Operator.hasNext d.root with
    | .error e => (.failed ⟨e, none⟩, d)
    | .ok false => (.ended, d)
    | .ok true =>
      let (readiness, root) := Operator.readiness d.root
      let d := { d with root := root }
      match readiness with
      | .ready => d.pull
      | .waiting ticket => d.await ticket

/-- Turns that bring something to an end, one way or the other. -/
def patience (d : Driver σ) : Nat := Operator.work d.root + 1

inductive NextBlock where
  | block (block : Block)
  | none
  | pending
  | failed (failure : DriverFailure)
  deriving DecidableEq

/-- Takes turns until there is a block or an end. Where it would have to wait
it gives up the wait. -/
def nextBlockWithin : (turns : Nat) → Driver σ → NextBlock × Driver σ
  | 0, d => (.pending, d)
  | turns + 1, d =>
    match d.turn none with
    | (.block block, d) => (.block block, d)
    | (.notReady, d) => nextBlockWithin turns d
    | (.ended, d) => (.none, d)
    | (.blocked ticket, d) => (.pending, { d with root := Operator.release ticket d.root })
    | (.failed failure, d) => (.failed failure, d)

def nextBlock (d : Driver σ) : NextBlock × Driver σ := nextBlockWithin d.patience d

def close (d : Driver σ) : Option DriverFailure × Driver σ :=
  if d.closed then (none, d)
  else
    let (outcome, root) := Operator.close d.root
    let d := { d with root := root, closed := true }
    match outcome with
    | .error e => (some ⟨e, some .closing⟩, d)
    | .ok () => (none, d)

end Driver

/-- A run of a driver to its end, which may have to wait on the way. -/
structure Run (σ : Type) where
  driver : Driver σ
  /-- The blocks so far. -/
  blocks : List Block
  awaited : Option Ticket

inductive RunOutcome where
  | finished (blocks : List Block)
  | failed (failure : DriverFailure)
  | pending
  deriving DecidableEq

namespace Run
variable {σ : Type} [Operator σ]

def start (d : Driver σ) : Run σ := ⟨d, [], none⟩

/-- Closes the root, also after a failure, which then counts before that of closing. -/
def finish (r : Run σ) (failure : Option DriverFailure) : RunOutcome × Run σ :=
  let (closing, driver) := r.driver.close
  let r := { r with driver := driver, awaited := none }
  match failure, closing with
  | some e, _ => (.failed e, r)
  | none, some e => (.failed e, r)
  | none, none => (.finished r.blocks, r)

def pollWithin : (turns : Nat) → Run σ → RunOutcome × Run σ
  | 0, r => (.pending, r)
  | turns + 1, r =>
    match r.driver.turn r.awaited with
    | (.block block, d) => pollWithin turns ⟨d, r.blocks ++ [block], none⟩
    | (.notReady, d) => pollWithin turns ⟨d, r.blocks, none⟩
    | (.ended, d) => { r with driver := d }.finish none
    | (.blocked ticket, d) => (.pending, ⟨d, r.blocks, some ticket⟩)
    | (.failed failure, d) => { r with driver := d }.finish (some failure)

/-- Goes on until the end or until it has to wait. -/
def poll (r : Run σ) : RunOutcome × Run σ := pollWithin r.driver.patience r

end Run
end WindowFold
