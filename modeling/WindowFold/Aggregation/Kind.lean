/-! The aggregate functions, and the phases of an aggregation. -/
namespace WindowFold

inductive AggregationKind where
  | count
  | sum
  | avg
  | extreme
  | minValue
  | maxValue
  | minTime
  | maxTime
  | firstValue
  | lastValue
  deriving DecidableEq

namespace AggregationKind

def all : List AggregationKind :=
  [count, sum, avg, extreme, minValue, maxValue, minTime, maxTime, firstValue, lastValue]

def name : AggregationKind → String
  | count => "count"
  | sum => "sum"
  | avg => "avg"
  | extreme => "extreme"
  | minValue => "min_value"
  | maxValue => "max_value"
  | minTime => "min_time"
  | maxTime => "max_time"
  | firstValue => "first_value"
  | lastValue => "last_value"

/-- The function with exactly this name. -/
def ofName? (name : String) : Option AggregationKind :=
  all.find? (·.name = name)

/-- The function with this name or a short form of it, in lower case. -/
def ofAlias? (word : String) : Option AggregationKind :=
  if word = "min" then some minValue
  else if word = "max" then some maxValue
  else if word = "first" then some firstValue
  else if word = "last" then some lastValue
  else ofName? word

/-- What the columns of a partial result are called after the aggregation's
name; a single column needs no addition. -/
def partialSuffixes : AggregationKind → List String
  | avg => ["count", "sum"]
  | firstValue | lastValue => ["value", "time"]
  | _ => []

def needsNumbers : AggregationKind → Bool
  | sum | avg | extreme => true
  | _ => false

end AggregationKind

/-- Where an aggregation sits when it is done in two phases. -/
inductive AggregationStep where
  /-- From rows to the result. -/
  | single
  /-- From rows to a partial result. -/
  | opening
  /-- From partial results to one partial result. -/
  | relaying
  /-- From partial results to the result. -/
  | closing
  deriving DecidableEq

namespace AggregationStep

def all : List AggregationStep := [single, opening, relaying, closing]

def name : AggregationStep → String
  | single => "single"
  | opening => "partial"
  | relaying => "intermediate"
  | closing => "final"

/-- The name as error messages write it. -/
def title : AggregationStep → String
  | single => "Single"
  | opening => "Partial"
  | relaying => "Intermediate"
  | closing => "Final"

def ofName? (name : String) : Option AggregationStep :=
  all.find? (·.name = name)

def readsRows : AggregationStep → Bool
  | single | opening => true
  | relaying | closing => false

def givesResult : AggregationStep → Bool
  | single | closing => true
  | opening | relaying => false

end AggregationStep
end WindowFold
