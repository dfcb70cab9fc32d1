import WindowFold.Block

/-! Operators are pulled for one answer at a time. One that answered that it
has nothing yet must be asked for its readiness before it is pulled again. -/
namespace WindowFold

inductive Answer where
  /-- One or more rows. -/
  | block (block : Block)
  /-- Nothing this time. -/
  | notReady
  /-- Nothing any more. -/
  | endOfStream
  deriving DecidableEq

/-- One receive of a source within a tree: the way down to the source, child by
child, and the receive's number there. -/
structure Ticket where
  path : List Nat
  receive : Nat
  deriving DecidableEq

/-- The same ticket as seen from a parent. -/
def Ticket.under (ticket : Ticket) (child : Nat) : Ticket :=
  { ticket with path := child :: ticket.path }

/-- Whether a pull may make progress now, or only once a receive is complete. -/
inductive Readiness where
  | ready
  | waiting (ticket : Ticket)
  deriving DecidableEq

namespace Readiness

def isReady : Readiness → Bool
  | ready => true
  | waiting _ => false

def under (child : Nat) : Readiness → Readiness
  | ready => ready
  | waiting ticket => waiting (ticket.under child)

end Readiness

class Operator (σ : Type) where
  schema : σ → Schema
  /-- Whether an answer other than the end may come. -/
  hasNext : σ → Except Failure Bool
  /-- A ticket that is handed out counts as held until it is released. -/
  readiness : σ → Readiness × σ
  next : σ → Attempt σ Answer
  /-- Closing again does nothing. -/
  close : σ → Attempt σ Unit
  /-- Lets a receive take a block if there is one; tells whether it is complete. -/
  poll : Ticket → σ → Bool × σ
  /-- Whether a receive is complete. -/
  isComplete : Ticket → σ → Bool
  /-- Gives a ticket back. -/
  release : Ticket → σ → σ
  /-- At least as many as the answers that may come before the end or a wait. -/
  work : σ → Nat

end WindowFold
