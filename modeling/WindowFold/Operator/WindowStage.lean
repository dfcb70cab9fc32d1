import WindowFold.Aggregation.Aggregator
import WindowFold.Operator
import WindowFold.RowBuffer
import WindowFold.Window.Series

/-! Aggregates the rows of one child window by window. A block may span several
windows and a window several blocks: what is left of the last block pulled is
kept for the windows to come. -/
namespace WindowFold

/-- The time column, then the output columns of every aggregation. -/
def outputSchema (aggregators : List Aggregator) : Schema :=
  Block.timeField :: aggregators.flatMap (·.outputFields)

/-- The row that the aggregations of a window have come to. -/
def outputRow (aggregators : List Aggregator) : List Scalar :=
  aggregators.flatMap (·.output)

def enterAll (aggregators : List Aggregator) (range : TimeRange) : List Aggregator :=
  aggregators.map (·.enter range)

structure WindowStage where
  name : String
  aggregators : List Aggregator
  cursor : Cursor
  schema : Schema
  buffer : RowBuffer
  /-- The window that is being aggregated. -/
  active : Option Window
  /-- Rows pulled and not yet used. -/
  cached : Option Block
  /-- The child has not been pulled in this call. -/
  mayPull : Bool
  inputEnded : Bool
  closed : Bool
  deriving DecidableEq

namespace WindowStage

def create (context : Context) (aggregators : List Aggregator) (cursor : Cursor) : WindowStage where
  name := context.name
  aggregators := aggregators
  cursor := cursor
  schema := outputSchema aggregators
  buffer := .create (outputSchema aggregators) context.limits
  active := none
  cached := none
  mayPull := true
  inputEnded := false
  closed := false

def scan (w : WindowStage) : Scan := w.cursor.scan

/-- Windows that have no row yet, the active one included. -/
def windowsLeft (w : WindowStage) : Nat :=
  w.cursor.remaining + (if w.active.isSome then 1 else 0)

def hasNext (w : WindowStage) : Bool := !w.closed && (w.active.isSome || w.cursor.hasNext)

def allSettled (w : WindowStage) : Bool := w.aggregators.all (·.isSettled)

/-- Feeds a block to every aggregation that is not settled, up to the first
that fails; tells where the rows after the window begin. -/
def feedOpen (block : Block) : List Aggregator → Attempt (List Aggregator) Nat
  | [] => (.ok 0, [])
  | a :: rest =>
    if a.isSettled then
      let (outcome, rest) := feedOpen block rest
      (outcome, a :: rest)
    else
      match a.feedBlock block with
      | (.error e, a) => (.error e, a :: rest)
      | (.ok stop, a) =>
        let (outcome, rest) := feedOpen block rest
        (outcome.map (max stop), a :: rest)

/-- Uses up the kept rows as far as the window goes. True once the window can
get no more rows: later ones are at hand already, or everything is settled. -/
def feedCached (w : WindowStage) (range : TimeRange) : Attempt WindowStage Bool :=
  if w.allSettled then (.ok true, w)
  else
    match w.cached with
    | none => (.ok false, w)
    | some block =>
      let w := { w with cached := none }
      if block.isEmpty then (.ok false, w)
      else
        let block := block.skipTo range w.scan
        match feedOpen block w.aggregators with
        | (.error e, aggregators) => (.error e, { w with aggregators := aggregators })
        | (.ok stop, aggregators) =>
          let tail := block.sliceFrom stop
          let w := { w with
            aggregators := aggregators
            cached := if tail.isEmpty then none else some tail }
          let passed := tail.startTime?.any (range.isPassedBy w.scan)
          (.ok (passed || w.allSettled), w)

/-- What the active window needs before it can be closed. -/
inductive Need where
  | nothing
  | input
  deriving DecidableEq

variable {σ : Type}

/-- A window is done when it can get no more rows or the child has none. -/
def advance (hasNext : σ → Except Failure Bool) (w : WindowStage) (child : σ)
    (range : TimeRange) : Attempt WindowStage Need :=
  match w.feedCached range with
  | (.error e, w) => (.error e, w)
  | (.ok true, w) => (.ok .nothing, w)
  | (.ok false, w) =>
    let w := { w with cached := none }
    if w.inputEnded then (.ok .nothing, w)
    else
      match hasNext child with
      | .error e => (.error e, w)
      | .ok false => (.ok .nothing, w)
      | .ok true => (.ok .input, w)

/-- Takes in an answer of the child. Rows out of scan order are refused. -/
def accept (w : WindowStage) : Answer → Except Failure WindowStage
  | .block block =>
    match block.checkScanOrder w.scan with
    | .error e => .error e
    | .ok () => .ok (if block.isEmpty then w else { w with cached := some block })
  | .notReady => .ok w
  | .endOfStream => .ok { w with inputEnded := true }

/-- Brings the active window to its end, pulling the child at most once. False
if the child has to be waited for. -/
def resolve (hasNext : σ → Except Failure Bool) (pull : σ → Attempt σ Answer)
    (w : WindowStage) (child : σ) (range : TimeRange) : Attempt (WindowStage × σ) Bool :=
  match w.advance hasNext child range with
  | (.error e, w) => (.error e, w, child)
  | (.ok .nothing, w) => (.ok true, w, child)
  | (.ok .input, w) =>
    if !w.mayPull then (.ok false, w, child)
    else
      let w := { w with mayPull := false }
      match pull child with
      | (.error e, child) => (.error e, w, child)
      | (.ok answer, child) =>
        match w.accept answer with
        | .error e => (.error e, w, child)
        | .ok w =>
          match w.advance hasNext child range with
          | (.error e, w) => (.error e, w, child)
          | (.ok need, w) => (.ok (need = .nothing), w, child)

/-- The active window, or the next one made active. -/
def enterWindow (w : WindowStage) : Option (Window × WindowStage) :=
  match w.active with
  | some window => some (window, w)
  | none =>
    w.cursor.next?.map fun (window, cursor) =>
      (window, { w with
        cursor := cursor
        aggregators := enterAll w.aggregators window.range
        active := some window })

/-- Closes windows until the buffer is full, the child has to be waited for, or
`windows` of them are closed. -/
def closeWindows (hasNext : σ → Except Failure Bool) (pull : σ → Attempt σ Answer) :
    (windows : Nat) → WindowStage → σ → Attempt (WindowStage × σ) Unit
  | 0, w, child => (.ok (), w, child)
  | windows + 1, w, child =>
    if w.buffer.isFull then (.ok (), w, child)
    else
      match w.enterWindow with
      | none => (.ok (), w, child)
      | some (window, w) =>
        match w.resolve hasNext pull child window.range with
        | (.error e, w, child) => (.error e, w, child)
        | (.ok false, w, child) => (.ok (), w, child)
        | (.ok true, w, child) =>
          let w := { w with active := none }
          match w.buffer.append window.outputTime (outputRow w.aggregators) with
          | .error e => (.error e, w, child)
          | .ok buffer => closeWindows hasNext pull windows { w with buffer := buffer } child

/-- What a call answers once it has closed what windows it can. -/
def answer (w : WindowStage) : Attempt WindowStage Answer :=
  if !w.buffer.isEmpty then
    let (outcome, buffer) := w.buffer.build
    (outcome.map .block, { w with buffer := buffer })
  else if w.hasNext then (.ok .notReady, w)
  else (.ok .endOfStream, w)

def next (hasNext : σ → Except Failure Bool) (pull : σ → Attempt σ Answer)
    (w : WindowStage) (child : σ) : Attempt (WindowStage × σ) Answer :=
  if w.closed then (.error (.protocolViolation w.name .pulledAfterClose), w, child)
  else
    let w := { w with buffer := w.buffer.clear, mayPull := true }
    match w.closeWindows hasNext pull w.windowsLeft child with
    | (.error e, w, child) => (.error e, w, child)
    | (.ok (), w, child) =>
      let (outcome, w) := w.answer
      (outcome, w, child)

/-- The stage is ready on its own only if the child has nothing to say. -/
def asksChild (w : WindowStage) : Bool := !w.closed && !w.inputEnded

def close (w : WindowStage) : WindowStage :=
  { w with closed := true, cached := none, active := none }

end WindowStage
end WindowFold
