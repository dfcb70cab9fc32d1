import WindowFold.Failure

/-! The windows that a query asks for: a range of time, the length of a window
and the distance between the starts of two. -/
namespace WindowFold

inductive Duration where
  | millis (count : Int)
  /-- Calendar months, whatever their lengths. -/
  | months (count : Nat)
  deriving DecidableEq

namespace Duration

def isPositive : Duration → Bool
  | millis count => 0 < count
  | months count => 0 < count

end Duration

/-- Windows start at `start` and every step after it, and none reaches past `stop`. -/
structure Grouping where
  start : Timestamp
  stop : Timestamp
  interval : Duration
  /-- Windows follow each other without gaps if no step is given. -/
  slidingStep : Option Duration
  /-- A window has its start and not its end; otherwise its end and not its start. -/
  leftClosed : Bool
  deriving DecidableEq

namespace Grouping

def step (g : Grouping) : Duration := g.slidingStep.getD g.interval

/-- Windows must not overlap, and both lengths must have one unit. -/
def validate (g : Grouping) : Except Failure Unit :=
  if g.stop ≤ g.start then .error (.invalidConfig (.emptyGrouping g.start g.stop))
  else if !g.interval.isPositive || !g.step.isPositive then
    .error (.invalidConfig .lengthNotPositive)
  else
    let overlapping (shorter : Bool) : Except Failure Unit :=
      if shorter then .error (.unsupported .overlappingWindows) else .ok ()
    match g.interval, g.step with
    | .millis interval, .millis step => overlapping (step < interval)
    | .months interval, .months step => overlapping (step < interval)
    | _, _ => .error (.unsupported .mixedUnits)

end Grouping
end WindowFold
