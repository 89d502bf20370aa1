import StorageIncentives.Procedure

/-!
# Upgrade

The admin sends new code, which the chain puts in place and then asks to take over the stored
registry.
-/

namespace StorageIncentives.Operation

open Procedure

def migrateTeraGas : Word := 200

def migrateGas : Word := migrateTeraGas.mulSat 1_000_000_000_000

def updateContract : Procedure Unit := do
  requireOneYocto
  requireAdmin
  let ctx ← read
  require (ctx.input ≠ []) .missingCode
  promise ⟨ctx.self, [.deployContract ctx.input, .functionCall "migrate" [] 0 migrateGas]⟩

/-- Marks the stored registry as one of the running version. -/
def migrate : Procedure Unit := do
  let r ← registry
  update fun r => { r with version := Registry.currentVersion }
  emit (.contractUpgraded (← read).self r.version Registry.currentVersion)

end StorageIncentives.Operation
