import WindowFold.Scalar.Text
import WindowFold.Yaml.Character

/-! What plain text stands for: nothing, a truth value, a number, or itself. -/
namespace WindowFold.Yaml.Plain

def isNull (text : String) : Bool := ["null", "Null", "NULL", "~"].contains text

def boolean? (text : String) : Option Bool :=
  if ["true", "True", "TRUE"].contains text then some true
  else if ["false", "False", "FALSE"].contains text then some false
  else none

/-- A number by its digits, at least one. -/
def digits? (base : Nat) (cs : List Char) : Option Nat :=
  if cs.isEmpty then none
  else
    cs.foldl (fun number c =>
      match number, hexDigit? c with
      | some n, some d => if d < base then some (base * n + d) else none
      | _, _ => none) (some 0)

/-- A number without a sign. A decimal number has no zero in front of other digits. -/
def magnitude? : List Char → Option Nat
  | '0' :: 'x' :: cs => digits? 16 cs
  | '0' :: 'o' :: cs => digits? 8 cs
  | '0' :: 'b' :: cs => digits? 2 cs
  | '0' :: _ :: _ => none
  | cs => digits? 10 cs

def natural? (text : String) : Option Nat :=
  match text.toList with
  | '+' :: cs => magnitude? cs
  | cs => magnitude? cs

def integer? (text : String) : Option Int :=
  match text.toList with
  | '-' :: cs => (magnitude? cs).map fun n => -(n : Int)
  | _ => (natural? text).map fun n => (n : Int)

/-- Digits with a zero in front, such as those of a code. -/
def isZeroLed (text : String) : Bool :=
  let (_, cs) := Text.takeSign text.toList
  cs.head? = some '0' && 1 < cs.length && cs.all Char.isDigit

/-- Numbers that 128 bits hold. -/
def isWide (n : Int) : Bool :=
  let size := UInt64.size * UInt64.size
  if n < 0 then 2 * n.natAbs ≤ size else n.natAbs < size

/-- Infinity, with or without a sign, and what is not a number. -/
def isNamedNumber (text : String) : Bool :=
  [".inf", ".Inf", ".INF", "+.inf", "+.Inf", "+.INF", "-.inf", "-.Inf", "-.INF",
    ".nan", ".NaN", ".NAN"].contains text

def isNumber (text : String) : Bool :=
  (integer? text).any isWide || isNamedNumber text
    || (Text.readFloat? .binary64 text.toList).any (·.isFinite)

/-- Plain text that may be taken for something else than text. -/
def isAmbiguous (text : String) : Bool :=
  text.isEmpty || isNull text || (boolean? text).isSome || isNumber text || isZeroLed text

end WindowFold.Yaml.Plain
