import WindowFold.Operator.Source
import WindowFold.Query

/-! Plans of operator trees, and how trees are made from them. -/
namespace WindowFold

/-- A block as it is written down: its columns may turn out to be of unequal length. -/
structure BlockDraft where
  times : List Timestamp
  columns : List (String × Column)

def BlockDraft.make (draft : BlockDraft) : Except Failure Block :=
  Block.ofTimes draft.times draft.columns

/-- An aggregation as it is written down, its function by a word. -/
structure AggregationDraft where
  word : String
  step : AggregationStep
  inputs : List Nat
  name : Option String

def AggregationDraft.make (draft : AggregationDraft) : Except Failure AggregationSpec :=
  (AggregationKind.ofWord draft.word).map fun kind => ⟨kind, draft.step, draft.inputs, draft.name⟩

structure QueryDraft where
  aggregations : List AggregationDraft
  grouping : Option Grouping
  scan : Scan
  keepsClipped : Bool

def QueryDraft.make (draft : QueryDraft) : Except Failure Query :=
  (draft.aggregations.mapM AggregationDraft.make).map fun aggregations =>
    ⟨aggregations, draft.grouping, draft.scan, draft.keepsClipped⟩

inductive ScriptLineDraft where
  | block (draft : BlockDraft)
  | notReady
  | endOfStream
  | failure (text : String)

def ScriptLineDraft.make : ScriptLineDraft → Except Failure ScriptLine
  | block draft => draft.make.map fun b => .answer (.block b)
  | notReady => .ok (.answer .notReady)
  | endOfStream => .ok (.answer .endOfStream)
  | failure text => .ok (.failure text)

/-- What a node of a plan is. -/
inductive PlanKind where
  | replay (schema : Option Schema) (blocks : List BlockDraft)
  | exchange (schema : Schema) (capacity : Nat)
  | window (query : QueryDraft)
  | merge (query : QueryDraft)
  | script (schema : Schema) (lines : List ScriptLineDraft) (closeFailure : Option Failure)

/-- A node checks how many children it is given, unless it is built directly. -/
inductive Plan where
  | node (name : String) (id : Nat) (direct : Bool) (kind : PlanKind) (children : List Plan)

namespace Plan

/-- A tree, and a line about each operator that was built with its checks. -/
abbrev Built := Tree Source × List String

private def expectChildren (name expected : String) (children : List (Tree Source)) (ok : Bool) :
    Except Failure Unit :=
  if ok then .ok () else .error (.invalidConfig (.childCount name expected children.length))

/-- One node over children that are built already. -/
def makeNode (context : Context) (direct : Bool) (kind : PlanKind)
    (children : List (Tree Source)) : Except Failure Built :=
  match kind with
  | .replay schema drafts => do
    let blocks ← drafts.mapM fun draft => draft.make
    match schema, direct with
    | none, _ =>
      let replay ← Replay.ofBlocks context.name blocks
      return (.source (.replay replay), [])
    | some schema, true =>
      let replay ← Replay.create context.name schema blocks
      return (.source (.replay replay), [])
    | some schema, false =>
      expectChildren context.name "no" children children.isEmpty
      let replay ← Replay.create context.name schema blocks
      return (.source (.replay replay), ["Values(" ++ toString blocks.length ++ " blocks)"])
  | .exchange schema capacity => do
    let tree := Tree.source (.exchange (.create context.name schema capacity))
    if direct then return (tree, [])
    else
      expectChildren context.name "no" children children.isEmpty
      return (tree, ["ExchangeSource"])
  | .window draft => do
    let query ← draft.make
    if !direct then expectChildren context.name "exactly one" children (children.length = 1)
    match children with
    | [] => .error (.invalidConfig (.childCount context.name "exactly one" 0))
    | child :: _ =>
      let stage ← query.windowStage context child.schema
      return (.window stage child,
        if direct then [] else ["WindowAggregate(" ++ query.render ++ ")"])
  | .merge draft => do
    let query ← draft.make
    if !direct then expectChildren context.name "at least one" children (!children.isEmpty)
    let stage ← query.mergeStage context (children.map (·.schema))
    return (.merge stage (children.map Inlet.create),
      if direct then [] else ["MergeAggregate(" ++ query.render ++ ")"])
  | .script schema drafts closeFailure => do
    let lines ← drafts.mapM fun draft => draft.make
    return (.source (.script (.create context.name schema lines closeFailure)), [])

mutual

/-- Children are built first, from left to right. -/
def makeTree (limits : Limits) : Plan → Except Failure Built
  | node name id direct kind children => do
    let built ← makeTrees limits children
    let (tree, lines) ← makeNode ⟨id, name, limits⟩ direct kind (built.map (·.1))
    return (tree, built.flatMap (·.2) ++ lines)

def makeTrees (limits : Limits) : List Plan → Except Failure (List Built)
  | [] => .ok []
  | plan :: rest => do
    let first ← makeTree limits plan
    let later ← makeTrees limits rest
    return first :: later

end

end Plan

namespace Tree

/-- The way to the exchange of a name; of several, to the last one. -/
def exchangePath? (tree : Tree Source) (name : String) : Option (List Nat) :=
  (tree.sources.reverse.find? fun (_, s) =>
    match s with
    | .exchange e => e.name = name
    | _ => false).map (·.1)

def onExchange {α : Type} (f : Exchange → α × Exchange) : Source → Option α × Source
  | .exchange e => ((f e).map some .exchange)
  | s => (none, s)

/-- Sends a block over the channel of a name. -/
def send (tree : Tree Source) (name : String) (block : Block) : SendOutcome × Tree Source :=
  match tree.exchangePath? name with
  | none => (.dropped, tree)
  | some path =>
    let (outcome, tree) := tree.act (onExchange (·.send block)) path
    (outcome.join.getD .dropped, tree)

/-- Drops the sender of a channel; tells whether there was one. -/
def dropSender (tree : Tree Source) (name : String) : Bool × Tree Source :=
  match tree.exchangePath? name with
  | none => (false, tree)
  | some path =>
    let (outcome, tree) := tree.act (onExchange Exchange.dropSender) path
    (outcome.join.getD false, tree)

/-- A name stands for one channel: the senders of earlier ones of that name are gone. -/
def dropShadowed (tree : Tree Source) : Tree Source :=
  tree.sources.foldl (fun tree (path, s) =>
    match s with
    | .exchange e =>
      if tree.exchangePath? e.name = some path then tree
      else (tree.act (onExchange Exchange.dropSender) path).2
    | _ => tree) tree

def scripts (tree : Tree Source) : List Script :=
  tree.sources.filterMap fun (_, s) =>
    match s with
    | .script s => some s
    | _ => none

end Tree

/-- The tree of a plan, with a line about each operator that was built with its checks. -/
def Plan.make (plan : Plan) (limits : Limits) : Except Failure Plan.Built :=
  (plan.makeTree limits).map fun (tree, lines) => (tree.dropShadowed, lines)

end WindowFold
