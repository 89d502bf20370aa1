import StorageIncentives.Operation.Administration
import StorageIncentives.Operation.Challenges
import StorageIncentives.Operation.Nodes
import StorageIncentives.Operation.Rewards
import StorageIncentives.Operation.Upgrade
import StorageIncentives.Operation.Uploads
import StorageIncentives.Query

/-!
# Calls

The calls that may change a registry, and what carrying one out shows. A call that fails changes
nothing and shows only its fault.
-/

namespace StorageIncentives

inductive Call where
  | transferAdmin (successor : Account)
  | addChallenger (account : Account)
  | removeChallenger (account : Account)
  | addStorageAdmin (account : Account)
  | removeStorageAdmin (account : Account)
  | updateConfig (config : Config)
  | setPaused (paused : Bool)
  | fund
  | updateContract
  | migrate
  | registerNode (capacity : Word)
  | updateAllocation (capacity : Word)
  | unregisterNode
  | updateMetadata (metadata : Metadata)
  | issueChallenge (id : String) (node : Account) (chunk : String) (nonce : Word)
  | submitProof (id : String) (proof : Bytes)
  | expireChallenges (ids : List String)
  | distributeRewards (period : Period) (candidates : List Account)
  | claimRewards
  | bookCapacity (units : Word)

namespace Call

def quiet (p : Procedure Unit) : Procedure Answer := do
  p
  return .nothing

def procedure : Call → Procedure Answer
  | .transferAdmin successor => quiet (Operation.transferAdmin successor)
  | .addChallenger account => quiet (Operation.addChallenger account)
  | .removeChallenger account => quiet (Operation.removeChallenger account)
  | .addStorageAdmin account => quiet (Operation.addStorageAdmin account)
  | .removeStorageAdmin account => quiet (Operation.removeStorageAdmin account)
  | .updateConfig config => quiet (Operation.updateConfig config)
  | .setPaused paused => quiet (Operation.setPaused paused)
  | .fund => quiet Operation.fund
  | .updateContract => quiet Operation.updateContract
  | .migrate => quiet Operation.migrate
  | .registerNode capacity => quiet (Operation.registerNode capacity)
  | .updateAllocation capacity => quiet (Operation.updateAllocation capacity)
  | .unregisterNode => quiet Operation.unregisterNode
  | .updateMetadata metadata => quiet (Operation.updateMetadata metadata)
  | .issueChallenge id node chunk nonce => quiet (Operation.issueChallenge id node chunk nonce)
  | .submitProof id proof => return .flag (← Operation.submitProof id proof)
  | .expireChallenges ids => return .count (← Operation.expireChallenges ids)
  | .distributeRewards period candidates =>
    return .amount (← Operation.distributeRewards period candidates)
  | .claimRewards => quiet Operation.claimRewards
  | .bookCapacity units => quiet (Operation.bookCapacity units)

end Call

structure Outcome where
  result : Except Fault Answer
  events : List Event
  receipts : List Receipt

def Outcome.silent (result : Except Fault Answer) : Outcome := ⟨result, [], []⟩

/-- Carries out a call and undoes what it wrote if it fails. -/
def Registry.perform (r : Registry) (ctx : Context) (call : Call) : Registry × Outcome :=
  match call.procedure.runIn ctx ⟨r, [], []⟩ with
  | (.ok answer, w) => (w.registry, ⟨.ok answer, w.events, w.receipts⟩)
  | (.error fault, _) => (r, .silent (.error fault))

end StorageIncentives
