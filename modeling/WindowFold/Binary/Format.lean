/-! Binary floating-point numbers of a format, kept as a sign and the code of
their magnitude: codes count the magnitudes upwards from zero, infinity is one
past the largest finite number, and the codes above it are not numbers. -/
namespace WindowFold

structure BinaryFormat where
  /-- Bits of the significand, the implied one included. -/
  precision : Nat
  exponentBits : Nat
  deriving DecidableEq

namespace BinaryFormat

def binary64 : BinaryFormat := ⟨53, 11⟩
def binary32 : BinaryFormat := ⟨24, 8⟩

/-- Magnitudes with one exponent. -/
def binade (f : BinaryFormat) : Nat := Nat.pow 2 (f.precision - 1)

/-- The code of infinity. -/
def infinity (f : BinaryFormat) : Nat := (Nat.pow 2 f.exponentBits - 1) * f.binade

/-- The code of the number that stands for an invalid result. -/
def quiet (f : BinaryFormat) : Nat := f.infinity + f.binade / 2

/-- The least positive number is `1 / unitsPerOne`. -/
def unitsPerOne (f : BinaryFormat) : Nat :=
  Nat.pow 2 (Nat.pow 2 (f.exponentBits - 1) + f.precision - 3)

/-- A finite magnitude as a multiple of the least positive one. -/
def units (f : BinaryFormat) (code : Nat) : Nat :=
  let exponent := code / f.binade
  let fraction := code % f.binade
  if exponent = 0 then fraction else (f.binade + fraction) * Nat.pow 2 (exponent - 1)

end BinaryFormat

/-- The nearest whole number to a quotient; a half goes to the even neighbour. -/
def roundQuotient (n d : Nat) : Nat :=
  let q := n / d
  let r := n % d
  if 2 * r < d then q else if d < 2 * r then q + 1 else q + q % 2

/-- The code nearest to `n / d` units. A significand that rounds up to a full
binade carries into the exponent, and a magnitude past the largest is infinite. -/
def BinaryFormat.nearest (f : BinaryFormat) (n d : Nat) : Nat :=
  let exponent := (n / d).log2 + 1 - f.precision
  min f.infinity (exponent * f.binade + roundQuotient n (d * Nat.pow 2 exponent))

structure Binary (f : BinaryFormat) where
  negative : Bool
  magnitude : Nat
  deriving DecidableEq

abbrev Binary64 := Binary .binary64
abbrev Binary32 := Binary .binary32

namespace Binary
variable {f : BinaryFormat}

def zero : Binary f := ⟨false, 0⟩
def infinite (negative : Bool) : Binary f := ⟨negative, f.infinity⟩

/-- The result of an operation that has none, such as infinity less infinity. -/
def invalid : Binary f := ⟨true, f.quiet⟩

def isNaN (x : Binary f) : Bool := f.infinity < x.magnitude
def isInfinite (x : Binary f) : Bool := x.magnitude == f.infinity
def isFinite (x : Binary f) : Bool := x.magnitude < f.infinity
def isZero (x : Binary f) : Bool := x.magnitude == 0

def abs (x : Binary f) : Binary f := { x with negative := false }
def neg (x : Binary f) : Binary f := { x with negative := !x.negative }

/-- A finite number in units of the least positive one. -/
def units (x : Binary f) : Int :=
  if x.negative then -(f.units x.magnitude : Int) else f.units x.magnitude

/-- The number nearest to `± n / d`. -/
def ofRatio (negative : Bool) (n d : Nat) : Binary f :=
  ⟨negative, f.nearest (n * f.unitsPerOne) d⟩

def ofInt (n : Int) : Binary f := ofRatio (n < 0) n.natAbs 1

/-- The whole part, toward zero; a number that is not finite has none. -/
def truncate? (x : Binary f) : Option Int :=
  if x.isFinite then some (x.units.tdiv f.unitsPerOne) else none

/-- The nearest number of another format. One that is not finite stays so. -/
def convert (g : BinaryFormat) (x : Binary f) : Binary g :=
  if x.isNaN then ⟨x.negative, g.quiet⟩
  else if x.isInfinite then infinite x.negative
  else ⟨x.negative, g.nearest (f.units x.magnitude * g.unitsPerOne) f.unitsPerOne⟩

/-- The place in the total order: negative before positive, the two zeros apart,
and what is not a number at the ends. -/
def place (x : Binary f) : Int :=
  if x.negative then -(x.magnitude : Int) - 1 else x.magnitude

/-- Numerically greater; false of what is not a number. -/
def exceeds (x y : Binary f) : Bool :=
  let level (z : Binary f) : Int := if z.negative then -(z.magnitude : Int) else z.magnitude
  !x.isNaN && !y.isNaN && level y < level x

/-- Numerically equal; the two zeros are. -/
def equals (x y : Binary f) : Bool :=
  !x.isNaN && !y.isNaN && !x.exceeds y && !y.exceeds x

end Binary
end WindowFold
