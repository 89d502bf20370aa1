/-!
# Traps

A trap stops a call in the middle of its work, where a rejection is a decision of the registry.
Nothing that a trapped call wrote is kept.
-/

namespace StorageIncentives

inductive Trap where
  | addOverflow
  | subUnderflow
  | divisionByZero
  /-- A call reached an account that holds no registry yet. -/
  | notInitialized
  /-- An upgrade found no stored registry to carry over. -/
  | stateMissing
  deriving DecidableEq, Repr

def Trap.message : Trap → String
  | .addOverflow => "attempt to add with overflow"
  | .subUnderflow => "attempt to subtract with overflow"
  | .divisionByZero => "attempt to divide by zero"
  | .notInitialized => "The contract is not initialized"
  | .stateMissing => "State read failed"

end StorageIncentives
