import WindowFold.Failure

/-! How large an output block may become. -/
namespace WindowFold

structure Limits where
  rows : Nat
  bytes : Nat
  deriving DecidableEq

namespace Limits

def standard : Limits := ⟨1000, 1048576⟩

def validate (limits : Limits) : Except Failure Unit :=
  if limits.rows = 0 then .error (.invalidConfig .noRowsPerBlock)
  else if limits.bytes = 0 then .error (.invalidConfig .noBytesPerBlock)
  else .ok ()

end Limits

/-- Who an operator is, and the limits it works under. -/
structure Context where
  id : Nat
  name : String
  limits : Limits
  deriving DecidableEq

namespace Context

def standard : Context := ⟨0, "operator", .standard⟩

/-- Another operator of the same query. -/
def sibling (context : Context) (id : Nat) (name : String) : Context :=
  { context with id, name }

end Context
end WindowFold
