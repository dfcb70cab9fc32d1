import WindowFold.Scalar.Type

/-! How scalars are written as text and read from it. -/
namespace WindowFold

/-- Where decimals are written positionally: up to `longest` digits before the
point, and from `10 ^ -deepest` on after it. -/
structure FloatLayout where
  longest : Int
  deepest : Int

namespace FloatLayout

def float64 : FloatLayout := ⟨16, 4⟩
def float32 : FloatLayout := ⟨13, 5⟩

private def zeros (n : Nat) : String := String.ofList (List.replicate n '0')

/-- A number that is written positionally always has a digit after the point;
one with an exponent has a point only if it has several digits. -/
def render {f : BinaryFormat} (layout : FloatLayout) (x : Binary f) : String :=
  if x.isNaN then "NaN"
  else
    let sign := if x.negative then "-" else ""
    if x.isInfinite then sign ++ "inf"
    else
      let d := x.shortest
      let digits := Nat.toDigits 10 d.digits
      let size := d.exponent + digits.length
      let text (cs : List Char) := String.ofList cs
      sign ++
        if x.isZero then "0.0"
        else if 0 ≤ d.exponent && size ≤ layout.longest then
          text digits ++ zeros d.exponent.toNat ++ ".0"
        else if 0 < size && size ≤ layout.longest then
          text (digits.take size.toNat) ++ "." ++ text (digits.drop size.toNat)
        else if -layout.deepest ≤ size && size ≤ 0 then
          "0." ++ zeros (-size).toNat ++ text digits
        else
          let fraction := if digits.length = 1 then "" else "." ++ text (digits.drop 1)
          text (digits.take 1) ++ fraction ++ "e" ++ toString (size - 1)

end FloatLayout

namespace Text

/-- A sign, if one is written, and the rest; true for minus. -/
def takeSign : List Char → Bool × List Char
  | '-' :: rest => (true, rest)
  | '+' :: rest => (false, rest)
  | rest => (false, rest)

/-- The number with the given decimal digits. -/
def digitsValue (digits : List Char) : Nat :=
  digits.foldl (fun n c => 10 * n + (c.toNat - '0'.toNat)) 0

/-- Decimal digits after an optional sign, and nothing else. -/
def readInt? (cs : List Char) : Option Int :=
  let (negative, digits) := takeSign cs
  if !digits.isEmpty && digits.all Char.isDigit then
    let n := digitsValue digits
    some (if negative then -(n : Int) else n)
  else none

/-- Digits around an optional point, at least one, then an optional exponent;
or a name of what is not a finite number. -/
def readFloat? (f : BinaryFormat) (cs : List Char) : Option (Binary f) :=
  let (negative, body) := takeSign cs
  let word := String.ofList (body.map Char.toLower)
  if word = "nan" then some ⟨negative, f.quiet⟩
  else if word = "inf" || word = "infinity" then some (.infinite negative)
  else
    let whole := body.takeWhile Char.isDigit
    let rest := body.drop whole.length
    let (fraction, rest) :=
      match rest with
      | '.' :: tail => (tail.takeWhile Char.isDigit, tail.dropWhile Char.isDigit)
      | _ => ([], rest)
    if whole.isEmpty && fraction.isEmpty then none
    else
      let number (exponent : Int) : Binary f :=
        .ofDecimal negative (digitsValue (whole ++ fraction)) (exponent - fraction.length)
      match rest with
      | [] => some (number 0)
      | c :: tail =>
        if c = 'e' || c = 'E' then (readInt? tail).map number else none

/-- The blanks of Unicode. -/
def isSpace (c : Char) : Bool :=
  let n := c.toNat
  (9 ≤ n && n ≤ 13) || (0x2000 ≤ n && n ≤ 0x200a)
    || [0x20, 0x85, 0xa0, 0x1680, 0x2028, 0x2029, 0x202f, 0x205f, 0x3000].contains n

/-- Without the blanks on both sides. -/
def trim (cs : List Char) : List Char :=
  ((cs.dropWhile isSpace).reverse.dropWhile isSpace).reverse

/-- The beginnings of `true`, `yes` and `on`, and of their opposites, in any case. -/
def readBool? (text : String) : Option Bool :=
  let word := String.ofList ((trim text.toList).map Char.toLower)
  if ["t", "tr", "tru", "true", "y", "ye", "yes", "on", "1"].contains word then some true
  else if ["f", "fa", "fal", "fals", "false", "n", "no", "of", "off", "0"].contains word then
    some false
  else none

end Text
end WindowFold
