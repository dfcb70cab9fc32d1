import WindowFold.Binary.Decimal

/-! The types of scalars, the values of each, and their order. -/
namespace WindowFold

inductive IntType where
  | int8 | int16 | int32 | int64
  | uint8 | uint16 | uint32 | uint64
  deriving DecidableEq

namespace IntType

def least : IntType → Int
  | int8 => -128
  | int16 => -32768
  | int32 => -2147483648
  | int64 => -9223372036854775808
  | uint8 | uint16 | uint32 | uint64 => 0

def greatest : IntType → Int
  | int8 => 127
  | int16 => 32767
  | int32 => 2147483647
  | int64 => 9223372036854775807
  | uint8 => 255
  | uint16 => 65535
  | uint32 => 4294967295
  | uint64 => 18446744073709551615

def name : IntType → String
  | int8 => "Int8"
  | int16 => "Int16"
  | int32 => "Int32"
  | int64 => "Int64"
  | uint8 => "UInt8"
  | uint16 => "UInt16"
  | uint32 => "UInt32"
  | uint64 => "UInt64"

/-- The number, if the type has it. -/
def fit? (t : IntType) (n : Int) : Option Int :=
  if t.least ≤ n && n ≤ t.greatest then some n else none

end IntType

inductive ScalarType where
  | boolean
  | integer (type : IntType)
  | float32
  | float64
  | utf8
  | date32
  deriving DecidableEq

namespace ScalarType

/-- Timestamps and counts are of this type. -/
abbrev int64 : ScalarType := .integer .int64

def name : ScalarType → String
  | boolean => "Boolean"
  | integer type => type.name
  | float32 => "Float32"
  | float64 => "Float64"
  | utf8 => "Utf8"
  | date32 => "Date32"

def isNumeric : ScalarType → Bool
  | integer _ | float32 | float64 => true
  | boolean | utf8 | date32 => false

/-- The values of a type. A date is its day, counted from 1 January 1970. -/
abbrev Value : ScalarType → Type
  | boolean => Bool
  | integer _ => Int
  | float32 => Binary32
  | float64 => Binary64
  | utf8 => String
  | date32 => Int

instance (type : ScalarType) : DecidableEq type.Value :=
  match type with
  | boolean => inferInstanceAs (DecidableEq Bool)
  | integer _ => inferInstanceAs (DecidableEq Int)
  | float32 => inferInstanceAs (DecidableEq Binary32)
  | float64 => inferInstanceAs (DecidableEq Binary64)
  | utf8 => inferInstanceAs (DecidableEq String)
  | date32 => inferInstanceAs (DecidableEq Int)

/-- The order of a type's values: false before true, numbers by size, floats by
their total order, texts by their characters. -/
def less : (type : ScalarType) → type.Value → type.Value → Bool
  | boolean, x, y => !x && y
  | integer _, x, y => x < y
  | float32, x, y => x.place < y.place
  | float64, x, y => x.place < y.place
  | utf8, x, y => x < y
  | date32, x, y => x < y

end ScalarType

/-- A value of a type, or the absence of one. -/
structure Scalar where
  type : ScalarType
  value : Option type.Value
  deriving DecidableEq

namespace Scalar

def null (type : ScalarType) : Scalar := ⟨type, none⟩
def int64 (n : Int) : Scalar := ⟨.int64, some n⟩
def float64 (x : Binary64) : Scalar := ⟨.float64, some x⟩

def isNull (s : Scalar) : Bool := s.value.isNone

/-- The value as one of the given type. -/
def valueAs? (s : Scalar) (type : ScalarType) : Option (Option type.Value) :=
  if same : s.type = type then some (same ▸ s.value) else none

/-- Both have a value, of one type, and the first is less. -/
def less (s t : Scalar) : Bool :=
  match s.value, t.valueAs? s.type with
  | some x, some (some y) => s.type.less x y
  | _, _ => false

/-- Bytes that a scalar takes up: a fixed part, and the text of a text. -/
def byteSize (s : Scalar) : Nat :=
  match s with
  | ⟨.utf8, some text⟩ => 64 + text.utf8ByteSize
  | _ => 64

end Scalar
end WindowFold
