import WindowFold.Failure
import WindowFold.Scalar.DateText

/-! Values of one type as values of another. A pair of types has a conversion
or not; where it has one, a value that does not fit becomes null. -/
namespace WindowFold.ScalarType

/-- Reads an integer; a text of digits must end in one. -/
private def intOfText? (type : IntType) (text : String) : Option Int :=
  (Text.readInt? text.toList).bind type.fit?

private def ofBool (type : ScalarType) (b : Bool) : Option type.Value :=
  match type with
  | boolean => some b
  | integer _ => some (if b then 1 else 0 : Int)
  | float32 => some (Binary.ofInt (if b then 1 else 0) : Binary32)
  | float64 => some (Binary.ofInt (if b then 1 else 0) : Binary64)
  | utf8 => some (if b then "true" else "false")
  | date32 => none

private def ofInteger (type : ScalarType) (n : Int) : Option type.Value :=
  match type with
  | boolean => some (n != 0)
  | integer t => t.fit? n
  | float32 => some (Binary.ofInt n : Binary32)
  | float64 => some (Binary.ofInt n : Binary64)
  | utf8 => some (toString n)
  | date32 => IntType.int32.fit? n

private def ofFloat {f : BinaryFormat} (layout : FloatLayout) (type : ScalarType) (x : Binary f) :
    Option type.Value :=
  match type with
  | boolean => some (!x.isZero)
  | integer t => x.truncate?.bind t.fit?
  | float32 => some (x.convert .binary32 : Binary32)
  | float64 => some (x.convert .binary64 : Binary64)
  | utf8 => some (layout.render x)
  | date32 => none

private def ofText (type : ScalarType) (text : String) : Option type.Value :=
  match type with
  | boolean => Text.readBool? text
  | integer t => intOfText? t text
  | float32 => (Text.readFloat? .binary32 text.toList : Option Binary32)
  | float64 => (Text.readFloat? .binary64 text.toList : Option Binary64)
  | utf8 => some text
  | date32 => DateText.read? text

private def ofDay (type : ScalarType) (day : Int) : Option type.Value :=
  match type with
  | integer t => t.fit? day
  | utf8 => DateText.render? day
  | date32 => some day
  | boolean | float32 | float64 => none

/-- The pairs of types between which there is a conversion. Dates convert to
and from texts and the two wide signed integers only. -/
def convertsTo : ScalarType → ScalarType → Bool
  | date32, integer t => t = .int32 || t = .int64
  | integer t, date32 => t = .int32 || t = .int64
  | date32, type => type = date32 || type = utf8
  | type, date32 => type = utf8
  | _, _ => true

/-- The value as one of the other type, if it fits. A value of the same type is
left as it is. -/
def convert (source target : ScalarType) (x : source.Value) : Option target.Value :=
  if same : source = target then some (same ▸ x)
  else match source with
  | boolean => ofBool target x
  | integer _ => ofInteger target x
  | float32 => ofFloat .float32 target (x : Binary32)
  | float64 => ofFloat .float64 target (x : Binary64)
  | utf8 => ofText target x
  | date32 => ofDay target x

end WindowFold.ScalarType

namespace WindowFold

/-- A day outside the supported years has no text; this is a failure, not a null. -/
def ScalarType.convertCell (source target : ScalarType) :
    Option source.Value → Except Failure (Option target.Value)
  | none => .ok none
  | some x =>
    match source.convert target x with
    | some y => .ok (some y)
    | none => if source = .date32 && target = .utf8 then .error .columnMismatch else .ok none

def ScalarType.convertCells (source target : ScalarType) (cells : List (Option source.Value)) :
    Except Failure (List (Option target.Value)) :=
  if source.convertsTo target then cells.mapM (source.convertCell target)
  else .error .columnMismatch

namespace Scalar

/-- The value as a 64-bit integer; one that does not fit reads as zero. -/
def toInt64? (s : Scalar) : Except Failure (Option Int) :=
  match s.value with
  | none => .ok none
  | some x =>
    if s.type.convertsTo .int64 then .ok (some ((s.type.convert .int64 x).getD 0))
    else .error .columnMismatch

/-- The value as a float; one that cannot be read reads as zero. -/
def toFloat64? (s : Scalar) : Except Failure (Option Binary64) :=
  match s.value with
  | none => .ok none
  | some x =>
    if s.type.convertsTo .float64 then .ok (some ((s.type.convert .float64 x).getD .zero))
    else .error .columnMismatch

end Scalar
end WindowFold
