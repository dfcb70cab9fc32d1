import WindowFold.Binary.Format

/-! Binary numbers and decimals: the number nearest to a decimal, and the
fewest decimal digits that read back. -/
namespace WindowFold.Binary
variable {f : BinaryFormat}

/-- The number nearest to `± digits * 10 ^ exponent`. A decimal whose size is
beyond `10 ^ ± 2 ^ exponentBits` is infinite or zero without being written out. -/
def ofDecimal (negative : Bool) (digits : Nat) (exponent : Int) : Binary f :=
  let size : Int := (Nat.toDigits 10 digits).length + exponent
  let bound : Int := Nat.pow 2 f.exponentBits
  if digits = 0 || size < -bound then ⟨negative, 0⟩
  else if bound < size then infinite negative
  else if 0 ≤ exponent then ofRatio negative (digits * Nat.pow 10 exponent.toNat) 1
  else ofRatio negative digits (Nat.pow 10 (-exponent).toNat)

/-- The decimal `digits * 10 ^ exponent`. -/
structure Decimal where
  digits : Nat
  exponent : Int
  deriving DecidableEq

namespace Decimal

/-- Without trailing zeros; `fuel` bounds their number. -/
def strip : Nat → Decimal → Decimal
  | 0, d => d
  | fuel + 1, d =>
    if d.digits ≠ 0 && d.digits % 10 = 0 then strip fuel ⟨d.digits / 10, d.exponent + 1⟩ else d

end Decimal

/-- The decimals with exponent `exponent` on both sides of a finite magnitude,
the nearer one that rounds to it. The numbers that round to a magnitude reach
halfway to its neighbours, the ends included if its code is even. -/
def roundingDecimal? (f : BinaryFormat) (code : Nat) (exponent : Int) : Option Decimal :=
  let scale := Nat.pow 10 (-exponent).toNat
  let unit := 2 * f.unitsPerOne * Nat.pow 10 exponent.toNat
  let value := 2 * f.units code * scale
  let low := (f.units (code - 1) + f.units code) * scale
  let high := (f.units code + f.units (code + 1)) * scale
  let within (d : Nat) : Bool :=
    if code % 2 = 0 then low ≤ d * unit && d * unit ≤ high
    else low < d * unit && d * unit < high
  let below := value / unit
  let above := below + 1
  match within below, within above with
  | false, false => none
  | true, false => some ⟨below, exponent⟩
  | false, true => some ⟨above, exponent⟩
  | true, true =>
    let down := value - below * unit
    let up := above * unit - value
    if down < up || (down = up && below % 2 = 0) then some ⟨below, exponent⟩
    else some ⟨above, exponent⟩

/-- The least `k` with magnitude below `10 ^ k`, looked for from an estimate by
the number of bits. -/
def decimalSize (f : BinaryFormat) (code : Nat) : Int :=
  let units := f.units code
  let bits : Int := (units.log2 : Int) - (f.unitsPerOne.log2 : Int)
  let guess := bits * 30103 / 100000
  let below (k : Int) : Bool :=
    units * Nat.pow 10 (-k).toNat < f.unitsPerOne * Nat.pow 10 k.toNat
  if below guess then guess else if below (guess + 1) then guess + 1 else guess + 2

/-- The fewest digits that read back, and of those the nearest: the first of
the given counts of digits that has a decimal rounding to the magnitude. -/
def shortestFrom (f : BinaryFormat) (code : Nat) (size : Int) : List Nat → Option Decimal
  | [] => none
  | count :: counts =>
    match roundingDecimal? f code (size - count) with
    | some d => some (d.strip 20)
    | none => shortestFrom f code size counts

def shortest (x : Binary f) : Decimal :=
  if x.isZero then ⟨0, 0⟩
  else
    (shortestFrom f x.magnitude (decimalSize f x.magnitude)
      [1, 2, 3, 4, 5, 6, 7, 8, 9, 10, 11, 12, 13, 14, 15, 16, 17]).getD ⟨0, 0⟩

end WindowFold.Binary
