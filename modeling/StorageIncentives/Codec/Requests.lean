import StorageIncentives.Codec.Records
import StorageIncentives.Deployment

/-!
# Requests by name

A request is the name of a method and its arguments. Every argument is read before anything is
done.
-/

namespace StorageIncentives

namespace Page

def ofMembers? (m : Members) : Option Page := do
  return ⟨← m.optional "from_index" Document.word?, ← m.optional "limit" Document.word?⟩

end Page

namespace Request

abbrev Reader := Members → Option Request

def ofAccount (request : Account → Request) (name : String) : Reader := fun m =>
  (m.required name Document.account?).map request

def administration : List (String × Reader) :=
  [("new", fun m => do
      return .create (← m.required "admin_id" Document.account?)
        (← m.optional "config" Config.ofDocument?)),
   ("migrate", fun _ => some (.call .migrate)),
   ("update_contract", fun _ => some (.call .updateContract)),
   ("transfer_admin", ofAccount (.call <| .transferAdmin ·) "new_admin"),
   ("add_challenger", ofAccount (.call <| .addChallenger ·) "account_id"),
   ("remove_challenger", ofAccount (.call <| .removeChallenger ·) "account_id"),
   ("add_storage_admin", ofAccount (.call <| .addStorageAdmin ·) "account_id"),
   ("remove_storage_admin", ofAccount (.call <| .removeStorageAdmin ·) "account_id"),
   ("update_config", fun m => do
      return .call (.updateConfig (← m.required "config" Config.ofDocument?))),
   ("set_paused", fun m => do return .call (.setPaused (← m.required "paused" Document.bool?))),
   ("fund_contract", fun _ => some (.call .fund))]

def operations : List (String × Reader) :=
  [("register_node", fun m => do
      return .call (.registerNode (← m.required "capacity" Document.word?))),
   ("update_allocation", fun m => do
      return .call (.updateAllocation (← m.required "capacity" Document.word?))),
   ("unregister_node", fun _ => some (.call .unregisterNode)),
   ("update_metadata", fun m => do return .call (.updateMetadata (← Metadata.ofMembers? m))),
   ("issue_challenge", fun m => do
      return .call (.issueChallenge (← m.required "challenge_id" Document.text?)
        (← m.required "node_id" Document.account?) (← m.required "chunk_id" Document.text?)
        (← m.required "nonce" Document.decimal?))),
   ("submit_proof", fun m => do
      return .call (.submitProof (← m.required "challenge_id" Document.text?)
        (← m.required "proof" Document.bytes?))),
   ("resolve_expired_challenges", fun m => do
      return .call (.expireChallenges
        (← m.required "challenge_ids" (Document.list? Document.text?)))),
   ("distribute_rewards", fun m => do
      return .call (.distributeRewards (← m.required "period" Document.word?)
        (← m.required "nodes" (Document.list? Document.account?)))),
   ("claim_rewards", fun _ => some (.call .claimRewards)),
   ("register_as_uploader", fun m => do
      return .call (.bookCapacity (← m.required "amount_units" Document.word?)))]

def queries : List (String × Reader) :=
  [("get_config", fun _ => some (.query .config)),
   ("get_admin", fun _ => some (.query .admin)),
   ("get_version", fun _ => some (.query .version)),
   ("is_paused", fun _ => some (.query .isPaused)),
   ("is_challenger", ofAccount (.query <| .isChallenger ·) "account_id"),
   ("get_challengers", fun _ => some (.query .challengers)),
   ("get_storage_admins", fun _ => some (.query .storageAdmins)),
   ("get_contract_stats", fun _ => some (.query .overview)),
   ("get_current_period", fun _ => some (.query .currentPeriod)),
   ("get_period_clock", fun _ => some (.query .clock)),
   ("get_period_stats", fun m => do
      return .query (.periodStats (← m.required "period" Document.word?))),
   ("get_node", ofAccount (.query <| .node ·) "account_id"),
   ("get_provider_metadata", ofAccount (.query <| .metadata ·) "account_id"),
   ("get_node_count", fun _ => some (.query .nodeCount)),
   ("get_node_address_at", fun m => do
      return .query (.accountAt (← m.required "index" Document.word?))),
   ("get_registered_addresses", fun m => do
      return .query (.registeredAccounts (← Page.ofMembers? m))),
   ("get_challenge", fun m => do
      return .query (.challenge (← m.required "challenge_id" Document.text?))),
   ("get_pending_rewards", ofAccount (.query <| .pendingRewards ·) "account_id"),
   ("is_allowed_uploader", ofAccount (.query <| .mayUpload ·) "account_id"),
   ("is_storage_admin", ofAccount (.query <| .isStorageAdmin ·) "account_id"),
   ("get_booked_capacity", ofAccount (.query <| .bookedCapacity ·) "account_id"),
   ("get_uploader_price_per_unit", fun _ => some (.query .pricePerUnit)),
   ("get_capacity_usage", fun _ => some (.query .usage)),
   ("get_uploaders", fun m => do return .query (.uploaders (← Page.ofMembers? m))),
   ("get_uploader_count", fun _ => some (.query .uploaderCount))]

/-- The reader of a method's arguments, if there is such a method. -/
def reader? (method : String) : Option Reader :=
  (administration ++ operations ++ queries).lookup method

end Request

end StorageIncentives
