import WindowFold.Operator.Exchange
import WindowFold.Operator.Replay
import WindowFold.Operator.Script

/-! The sources that a tree can have. -/
namespace WindowFold

inductive Source where
  | replay (replay : Replay)
  | exchange (exchange : Exchange)
  | script (script : Script)
  deriving DecidableEq

namespace Source

def readiness : Source → Readiness × Source
  | replay r => (Operator.readiness r).map id replay
  | exchange e => (Operator.readiness e).map id exchange
  | script s => (Operator.readiness s).map id script

def next : Source → Attempt Source Answer
  | replay r => (Operator.next r).map id replay
  | exchange e => (Operator.next e).map id exchange
  | script s => (Operator.next s).map id script

def close : Source → Attempt Source Unit
  | replay r => (Operator.close r).map id replay
  | exchange e => (Operator.close e).map id exchange
  | script s => (Operator.close s).map id script

def poll (ticket : Ticket) : Source → Bool × Source
  | replay r => (Operator.poll ticket r).map id replay
  | exchange e => (Operator.poll ticket e).map id exchange
  | script s => (Operator.poll ticket s).map id script

instance : Operator Source where
  schema
    | replay r => Operator.schema r
    | exchange e => Operator.schema e
    | script s => Operator.schema s
  hasNext
    | replay r => Operator.hasNext r
    | exchange e => Operator.hasNext e
    | script s => Operator.hasNext s
  readiness := readiness
  next := next
  close := close
  poll := poll
  isComplete ticket
    | replay r => Operator.isComplete ticket r
    | exchange e => Operator.isComplete ticket e
    | script s => Operator.isComplete ticket s
  release ticket
    | replay r => replay (Operator.release ticket r)
    | exchange e => exchange (Operator.release ticket e)
    | script s => script (Operator.release ticket s)
  work
    | replay r => Operator.work r
    | exchange e => Operator.work e
    | script s => Operator.work s

end Source
end WindowFold
