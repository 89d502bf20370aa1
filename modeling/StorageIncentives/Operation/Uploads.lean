import StorageIncentives.Procedure

/-!
# Booking capacity

An uploader books allocated capacity that nobody else has booked and pays for it with the deposit.
What is left of the deposit goes back.
-/

namespace StorageIncentives.Operation

open Procedure

def bookCapacity (units : Word) : Procedure Unit := do
  requireUnpaused
  let account ← caller
  let deposit := (← read).deposit
  let r ← registry
  require (units ≠ 0) .zeroAmount
  let price ← found (Amount.ofUnits? units r.config.pricePerUnit) (.overflow .bookingPrice)
  require (price ≤ deposit) (.underfunded price deposit)
  require (units ≤ r.headroom) (.insufficientCapacity units r.headroom)
  let total ← found ((r.bookings.booked account).add? units) (.overflow .bookedCapacity)
  let booked ← computed (r.booked.addOrTrap units)
  update fun r => { r with bookings := r.bookings.set account total, booked }
  let refund := deposit.subSat price
  emit (.uploaderRegistered account units total price refund)
  if refund ≠ 0 then promise (.payment account refund)

end StorageIncentives.Operation
