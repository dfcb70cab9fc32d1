import WindowFold.Operator
import WindowFold.Text.Quoted

/-! A source fed through a bounded channel. A receive is begun when readiness is
asked for and nothing is at hand; it takes a block only when it is polled. -/
namespace WindowFold

inductive Progress where
  /-- It takes nothing before it is polled. -/
  | begun
  /-- It waits for a block, and keeps the channel's receiving end locked. -/
  | polled
  | complete
  deriving DecidableEq

structure Receive where
  progress : Progress
  /-- Tickets for it that are held outside the source. -/
  held : Nat
  deriving DecidableEq

structure Exchange where
  name : String
  schema : Schema
  /-- Blocks that the channel holds at most. -/
  capacity : Nat
  queue : List Block
  hasSender : Bool
  /-- The receiving end takes blocks. -/
  accepting : Bool
  /-- The block of a completed receive, for the next pull. -/
  buffered : Option Block
  /-- No block will come any more. -/
  disconnected : Bool
  /-- Answered that it has nothing yet, and was not asked for its readiness since. -/
  awaiting : Bool
  /-- The receive that the source itself keeps. -/
  pending : Option Nat
  /-- All receives begun so far, in the order of their numbers. -/
  receives : List Receive
  closed : Bool
  deriving DecidableEq

inductive SendOutcome where
  | accepted
  | full
  /-- The receiving end takes nothing any more. -/
  | closed
  /-- There is no sender. -/
  | dropped
  deriving DecidableEq

namespace Exchange

def create (name : String) (schema : Schema) (capacity : Nat) : Exchange where
  name := name
  schema := schema
  capacity := capacity
  queue := []
  hasSender := true
  accepting := true
  buffered := none
  disconnected := false
  awaiting := false
  pending := none
  receives := []
  closed := false

def send (e : Exchange) (block : Block) : SendOutcome × Exchange :=
  if !e.hasSender then (.dropped, e)
  else if !e.accepting then (.closed, e)
  else if e.capacity ≤ e.queue.length then (.full, e)
  else (.accepted, { e with queue := e.queue ++ [block] })

/-- Tells whether there was a sender. -/
def dropSender (e : Exchange) : Bool × Exchange := (e.hasSender, { e with hasSender := false })

def hasNext (e : Exchange) : Bool := !e.closed && (e.buffered.isSome || !e.disconnected)

def isUnderWay (e : Exchange) (number : Nat) : Bool :=
  e.receives[number]?.any (·.progress ≠ .complete)

/-- The receives that keep the receiving end locked. One that nobody keeps or
holds is given up. -/
def lockers (e : Exchange) : List Nat :=
  (List.range e.receives.length).filter fun number =>
    e.receives[number]?.any fun r =>
      r.progress = .polled && (e.pending = some number || 0 < r.held)

def changeReceive (e : Exchange) (number : Nat) (change : Receive → Receive) : Exchange :=
  { e with receives := e.receives.modify number change }

def mark (e : Exchange) (number : Nat) (progress : Progress) : Exchange :=
  e.changeReceive number fun r => { r with progress := progress }

def begin (e : Exchange) : Readiness × Exchange :=
  (.waiting ⟨[], e.receives.length⟩,
    { e with
      receives := e.receives ++ [⟨.begun, 1⟩]
      pending := some e.receives.length })

/-- A receive that is still under way serves every question until it is complete. -/
def readiness (e : Exchange) : Readiness × Exchange :=
  let e := { e with awaiting := false }
  if e.closed || e.buffered.isSome || e.disconnected then (.ready, e)
  else
    match e.pending.filter e.isUnderWay with
    | some number =>
      (.waiting ⟨[], number⟩, e.changeReceive number fun r => { r with held := r.held + 1 })
    | none => e.begin

/-- A polled receive that has the receiving end to itself takes the first block
of the queue, or learns that none will come, and is then complete. -/
def poll (e : Exchange) (number : Nat) : Bool × Exchange :=
  if !e.isUnderWay number then (true, e)
  else if e.lockers.any (· ≠ number) then (false, e)
  else
    match e.queue with
    | first :: rest =>
      (true, { e with queue := rest, buffered := some first }.mark number .complete)
    | [] =>
      if e.hasSender && e.accepting then (false, e.mark number .polled)
      else (true, { e with disconnected := true }.mark number .complete)

def release (e : Exchange) (number : Nat) : Exchange :=
  e.changeReceive number fun r => { r with held := r.held - 1 }

def answerNotReady (e : Exchange) : Attempt Exchange Answer :=
  (.ok .notReady, { e with awaiting := true })

/-- Takes what a receive has brought; else, with no receive under way, what the
channel holds. -/
def next (e : Exchange) : Attempt Exchange Answer :=
  if e.closed then (.error (.protocolViolation e.name .pulledAfterClose), e)
  else if e.awaiting then (.error (.protocolViolation e.name .readinessNotChecked), e)
  else
    match e.buffered with
    | some block => (.ok (.block block), { e with buffered := none, pending := none })
    | none =>
      if e.disconnected then (.ok .endOfStream, e)
      else if e.pending.any e.isUnderWay || !e.lockers.isEmpty then e.answerNotReady
      else
        match e.queue with
        | first :: rest => (.ok (.block first), { e with queue := rest })
        | [] =>
          if e.hasSender then e.answerNotReady
          else (.ok .endOfStream, { e with disconnected := true })

/-- The channel is closed too, unless a receive still keeps it locked. -/
def close (e : Exchange) : Exchange :=
  if e.closed then e
  else
    let e := { e with closed := true, pending := none }
    if e.lockers.isEmpty then { e with accepting := false } else e

/-- The source as it is shown to a person looking into it. -/
def render (e : Exchange) : String :=
  "ExchangeSourceOperator \x7b operator: " ++ Text.quoted e.name ++ ", pending: "
    ++ toString e.pending.isSome ++ ", closed: " ++ toString e.closed ++ " \x7d"

instance : Operator Exchange where
  schema := schema
  hasNext e := .ok e.hasNext
  readiness := readiness
  next := next
  close e := (.ok (), e.close)
  poll ticket e := e.poll ticket.receive
  isComplete ticket e := !e.isUnderWay ticket.receive
  release ticket e := e.release ticket.receive
  -- Twice it may have nothing yet: with a receive under way, and with none.
  work e := e.queue.length + (if e.buffered.isSome then 1 else 0) + 3

end Exchange
end WindowFold
