import StorageIncentives.Procedure

/-!
# Administration

What the admin alone may do, each with a deposit of one unit: hand the role on, choose challengers
and storage admins, change the configuration, and stop and resume the registry's economy. Anyone
may add to the balance that rewards are paid from.
-/

namespace StorageIncentives.Operation

open Procedure

def transferAdmin (successor : Account) : Procedure Unit := do
  requireOneYocto
  requireAdmin
  let old := (← registry).admin
  require (successor ≠ old) .sameAdmin
  update fun r => { r with admin := successor }
  emit (.adminTransferred old successor)

def addChallenger (account : Account) : Procedure Unit := do
  requireOneYocto
  requireAdmin
  let r ← registry
  let challengers ← found (r.challengers.insert? account) (.alreadyChallenger account)
  update fun r => { r with challengers }
  emit (.challengerAdded r.admin account)

def removeChallenger (account : Account) : Procedure Unit := do
  requireOneYocto
  requireAdmin
  let r ← registry
  let challengers ← found (r.challengers.erase? account) (.notChallenger account)
  update fun r => { r with challengers }
  emit (.challengerRemoved r.admin account)

def addStorageAdmin (account : Account) : Procedure Unit := do
  requireOneYocto
  requireAdmin
  let r ← registry
  let storageAdmins ← found (r.storageAdmins.insert? account) (.alreadyStorageAdmin account)
  update fun r => { r with storageAdmins }
  emit (.storageAdminAdded r.admin account)

def removeStorageAdmin (account : Account) : Procedure Unit := do
  requireOneYocto
  requireAdmin
  let r ← registry
  let storageAdmins ← found (r.storageAdmins.erase? account) (.notStorageAdmin account)
  update fun r => { r with storageAdmins }
  emit (.storageAdminRemoved r.admin account)

/-- A new period length counts from the start of the running period. -/
def updateConfig (config : Config) : Procedure Unit := do
  requireOneYocto
  requireAdmin
  accepted config.validate
  let r ← registry
  let clock ← computed (r.clock.reanchor (← now) config.periodLength)
  update fun r => { r with clock, config }
  emit (.configUpdated r.admin config (← currentPeriod))

def setPaused (paused : Bool) : Procedure Unit := do
  requireOneYocto
  requireAdmin
  let r ← registry
  require (r.paused ≠ paused) (.pauseUnchanged paused)
  update fun r => { r with paused }
  emit (.pauseChanged r.admin paused)

/-- The deposit is the registry's already; the event makes it public. -/
def fund : Procedure Unit := do
  let deposit := (← read).deposit
  require (deposit ≠ 0) .zeroAmount
  emit (.contractFunded (← caller) deposit)

end StorageIncentives.Operation
