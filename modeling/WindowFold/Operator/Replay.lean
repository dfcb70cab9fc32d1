import WindowFold.Operator

/-! A source that answers with the blocks of a list, one after the other. -/
namespace WindowFold

structure Replay where
  name : String
  schema : Schema
  blocks : List Block
  closed : Bool
  deriving DecidableEq

namespace Replay

/-- Every block must have the column types of the schema. -/
def create (name : String) (schema : Schema) (blocks : List Block) : Except Failure Replay :=
  if blocks.all fun b => b.schema.agrees schema then .ok ⟨name, schema, blocks, false⟩
  else .error (.malformedBlock (.foreignBlock name))

/-- With the schema of the first block. -/
def ofBlocks (name : String) (blocks : List Block) : Except Failure Replay :=
  match blocks with
  | [] => .error (.invalidConfig .noBlocks)
  | first :: _ => create name first.schema blocks

def hasNext (r : Replay) : Bool := !r.closed && !r.blocks.isEmpty

def next (r : Replay) : Attempt Replay Answer :=
  if r.closed then (.error (.protocolViolation r.name .pulledAfterClose), r)
  else
    match r.blocks with
    | [] => (.ok .endOfStream, r)
    | first :: rest => (.ok (.block first), { r with blocks := rest })

def close (r : Replay) : Replay := { r with closed := true, blocks := [] }

instance : Operator Replay where
  schema := schema
  hasNext r := .ok r.hasNext
  readiness r := (.ready, r)
  next := next
  close r := (.ok (), r.close)
  poll _ r := (true, r)
  isComplete _ _ := true
  release _ r := r
  work r := r.blocks.length

end Replay
end WindowFold
