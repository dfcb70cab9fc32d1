import WindowFold.Operator.WindowStage

/-! Merges the partial results of several children. A window is closed in a
round in which every child that has not ended holds a block. -/
namespace WindowFold

/-- A child of a merge, and the rows of it that are not used yet. -/
structure Inlet (σ : Type) where
  child : σ
  held : Option Block
  /-- The child has not been pulled in this call. -/
  mayPull : Bool
  ended : Bool

/-- An inlet, and how its child is pulled. -/
structure Lane (σ : Type) where
  inlet : Inlet σ
  pull : σ → Attempt σ Answer

namespace Inlet
variable {σ : Type}

def create (child : σ) : Inlet σ := ⟨child, none, true, false⟩

/-- Without the rows up to the end of a range. -/
def skipPast (inlet : Inlet σ) (range : TimeRange) (scan : Scan) : Inlet σ :=
  { inlet with held := (inlet.held.map (·.skipPast range scan)).filter (!·.isEmpty) }

end Inlet

structure MergeStage where
  name : String
  aggregators : List Aggregator
  cursor : Cursor
  schema : Schema
  buffer : RowBuffer
  /-- The window that is being aggregated. -/
  active : Option Window
  closed : Bool
  deriving DecidableEq

namespace MergeStage
variable {σ : Type}

def create (context : Context) (aggregators : List Aggregator) (cursor : Cursor) : MergeStage where
  name := context.name
  aggregators := aggregators
  cursor := cursor
  schema := outputSchema aggregators
  buffer := .create (outputSchema aggregators) context.limits
  active := none
  closed := false

def scan (m : MergeStage) : Scan := m.cursor.scan

/-- Windows that have no row yet, the active one included. -/
def windowsLeft (m : MergeStage) : Nat :=
  m.cursor.remaining + (if m.active.isSome then 1 else 0)

def hasNext (m : MergeStage) : Bool := !m.closed && (m.active.isSome || m.cursor.hasNext)

/-- Fills the inlets that hold nothing, from left to right. False at the first
child that has no rows to give in this call. -/
def prepare (hasNext : σ → Except Failure Bool) (scan : Scan) :
    List (Lane σ) → Attempt (List (Lane σ)) Bool
  | [] => (.ok true, [])
  | lane :: rest =>
    let inlet := lane.inlet
    let goOn (inlet : Inlet σ) : Attempt (List (Lane σ)) Bool :=
      let (outcome, rest) := prepare hasNext scan rest
      (outcome, { lane with inlet := inlet } :: rest)
    let stop (outcome : Except Failure Bool) (inlet : Inlet σ) : Attempt (List (Lane σ)) Bool :=
      (outcome, { lane with inlet := inlet } :: rest)
    if inlet.held.isSome || inlet.ended then goOn inlet
    else
      match hasNext inlet.child with
      | .error e => stop (.error e) inlet
      | .ok false => goOn { inlet with ended := true }
      | .ok true =>
        if !inlet.mayPull then stop (.ok false) inlet
        else
          let (outcome, child) := lane.pull inlet.child
          let inlet := { inlet with child := child, mayPull := false }
          match outcome with
          | .error e => stop (.error e) inlet
          | .ok .notReady => stop (.ok false) inlet
          | .ok .endOfStream => goOn { inlet with ended := true }
          | .ok (.block block) =>
            if block.isEmpty then stop (.ok false) inlet
            else
              match block.checkScanOrder scan with
              | .error e => stop (.error e) inlet
              | .ok () => goOn { inlet with held := some block }

/-- The active window, or the next one made active. -/
def enterWindow (m : MergeStage) : Option (Window × MergeStage) :=
  match m.active with
  | some window => some (window, m)
  | none =>
    m.cursor.next?.map fun (window, cursor) =>
      (window, { m with
        cursor := cursor
        aggregators := enterAll m.aggregators window.range
        active := some window })

/-- Feeds the held blocks to every aggregation in turn, up to the first that fails. -/
def feedAll (blocks : List Block) : List Aggregator → Attempt (List Aggregator) Unit
  | [] => (.ok (), [])
  | a :: rest =>
    match a.feedBlocks blocks with
    | (.error e, a) => (.error e, a :: rest)
    | (.ok (), a) =>
      let (outcome, rest) := feedAll blocks rest
      (outcome, a :: rest)

/-- Closes a window with what the inlets hold. A failing aggregation leaves the
window active and the inlets as they are. -/
def closeWindow (m : MergeStage) (lanes : List (Lane σ)) (window : Window) :
    Attempt (MergeStage × List (Lane σ)) Unit :=
  match feedAll (lanes.filterMap (·.inlet.held)) m.aggregators with
  | (.error e, aggregators) => (.error e, { m with aggregators := aggregators }, lanes)
  | (.ok (), aggregators) =>
    let m := { m with aggregators := aggregators, active := none }
    let lanes := lanes.map fun lane =>
      { lane with inlet := lane.inlet.skipPast window.range m.scan }
    match m.buffer.append window.outputTime (outputRow m.aggregators) with
    | .error e => (.error e, m, lanes)
    | .ok buffer => (.ok (), { m with buffer := buffer }, lanes)

/-- Closes windows until the buffer is full, a child has to be waited for, or
`windows` of them are closed. -/
def closeWindows (hasNext : σ → Except Failure Bool) :
    (windows : Nat) → MergeStage → List (Lane σ) → Attempt (MergeStage × List (Lane σ)) Unit
  | 0, m, lanes => (.ok (), m, lanes)
  | windows + 1, m, lanes =>
    if m.buffer.isFull then (.ok (), m, lanes)
    else
      match prepare hasNext m.scan lanes with
      | (.error e, lanes) => (.error e, m, lanes)
      | (.ok false, lanes) => (.ok (), m, lanes)
      | (.ok true, lanes) =>
        match m.enterWindow with
        | none => (.ok (), m, lanes)
        | some (window, m) =>
          match m.closeWindow lanes window with
          | (.error e, m, lanes) => (.error e, m, lanes)
          | (.ok (), m, lanes) => closeWindows hasNext windows m lanes

/-- What a call answers once it has closed what windows it can. -/
def answer (m : MergeStage) : Attempt MergeStage Answer :=
  if !m.buffer.isEmpty then
    let (outcome, buffer) := m.buffer.build
    (outcome.map .block, { m with buffer := buffer })
  else if m.hasNext then (.ok .notReady, m)
  else (.ok .endOfStream, m)

def next (hasNext : σ → Except Failure Bool) (m : MergeStage) (lanes : List (Lane σ)) :
    Attempt (MergeStage × List (Inlet σ)) Answer :=
  if m.closed then
    (.error (.protocolViolation m.name .pulledAfterClose), m, lanes.map (·.inlet))
  else
    let m := { m with buffer := m.buffer.clear }
    let lanes := lanes.map fun lane => { lane with inlet := { lane.inlet with mayPull := true } }
    match m.closeWindows hasNext m.windowsLeft lanes with
    | (.error e, m, lanes) => (.error e, m, lanes.map (·.inlet))
    | (.ok (), m, lanes) =>
      let (outcome, m) := m.answer
      (outcome, m, lanes.map (·.inlet))

def close (m : MergeStage) : MergeStage := { m with closed := true, active := none }

end MergeStage
end WindowFold
