import WindowFold.Binary.Format

/-! Addition and division of binary numbers: the exact result, rounded once. -/
namespace WindowFold.Binary
variable {f : BinaryFormat}

/-- The first operand that is not a number, made quiet. -/
def firstNaN? (x y : Binary f) : Option (Binary f) :=
  if x.isNaN then some { x with magnitude := max x.magnitude f.quiet }
  else if y.isNaN then some { y with magnitude := max y.magnitude f.quiet }
  else none

/-- A sum that is exactly zero is negative only if both terms are. -/
def add (x y : Binary f) : Binary f :=
  match firstNaN? x y with
  | some z => z
  | none =>
    if x.isInfinite then
      if y.isInfinite && x.negative != y.negative then invalid else x
    else if y.isInfinite then y
    else
      let total := x.units + y.units
      if total = 0 then ⟨x.negative && y.negative, 0⟩
      else ⟨total < 0, f.nearest total.natAbs 1⟩

def div (x y : Binary f) : Binary f :=
  match firstNaN? x y with
  | some z => z
  | none =>
    let negative := x.negative != y.negative
    if x.isInfinite then
      if y.isInfinite then invalid else infinite negative
    else if y.isInfinite then ⟨negative, 0⟩
    else if y.isZero then
      if x.isZero then invalid else infinite negative
    else ofRatio negative x.units.natAbs y.units.natAbs

instance : Add (Binary f) := ⟨add⟩
instance : Div (Binary f) := ⟨div⟩

end WindowFold.Binary
